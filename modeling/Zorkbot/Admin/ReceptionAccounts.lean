/-
# What the bot has heard is accounted for

A message that the radio had before the runner was started is discarded. Every later one is heard
once by each handler for it: it is in the windows, in the statistics if it has to be, and what the
bot has queued for its players are messages that were heard.
-/

import Zorkbot.Admin.Reception

namespace Zorkbot.Admin

open Transition
open Zorkbot.Bot (Contacts Cooldown Incoming IncomingMessage Str ZorkBot)

/-! ## Accounts -/

def Observation.key (o : Observation) : Nat × Handler := (o.arrival, o.handler)

/-- The call is one of `record_rx`. -/
def WindowCall.isRx : WindowCall → Bool
  | .recordRx .. => true
  | .recordTx .. => false

/-- The message that is counted. -/
def LogCall.counted : LogCall → Option IncomingMessage
  | .received message => some message
  | _ => none

/-- The messages that the sink was told to count. -/
def logged (entries : List (Int × LogCall)) : List IncomingMessage :=
  entries.filterMap fun entry => entry.2.counted

namespace Reception

variable {cfg : ReceptionConfig} {cooldown : Cooldown} {s t : Reception}

/-- What is known of a reception in every state. -/
structure Accounts (cfg : ReceptionConfig) (s : Reception) : Prop where
  /-- What the radio hands over comes in the order in which it was received. -/
  ordered : (s.mailbox.flushed ++ s.mailbox.fetched).Pairwise (· < ·)
  /-- `startup_flushed_messages` is how many were discarded. -/
  flushed : ∀ n, s.mailbox.startupFlushed = some n →
    n = s.mailbox.flushed.length ∧ n ≤ maxFlushMessages
  /-- What the radio had when the runner was started is not heard, unless the flush has discarded
  as much as it may or a `get_msg` has failed. -/
  fresh : s.mailbox.Whole → ∀ o ∈ s.observed, s.mailbox.backlog ≤ o.arrival
  /-- A handler hears a message once. -/
  once : (s.observed.map Observation.key).Nodup
  heard : ∀ o ∈ s.observed, o.arrival ∈ s.mailbox.fetched ∧ ∃ packet contacts,
    s.mailbox.received[o.arrival]? = some packet ∧ o.handler ∈ handlers cfg packet ∧
      o.message = packet.message contacts
  /-- The windows are filled with what was heard and what was sent. -/
  windows : cfg.windows.recordAll s.calls = some s.windows
  shown : s.calls.filter WindowCall.isRx = s.observed.map fun o => observeRx o.at_ o.message
  /-- The statistics count a direct message that was heard once, -/
  direct : ∀ o ∈ s.observed, o.handler = .dm → o ∈ s.counted
  /-- one of the channel if it was put into a queue, -/
  channel : ∀ o ∈ s.observed, o.handler = .channel → o.queued = true → o ∈ s.counted
  /-- and nothing twice, and nothing that was not answered. -/
  counted : s.counted.Subperm (s.observed.filter fun o => o.counting ≠ .never)
  log : logged s.log = s.counted.map Observation.message
  /-- What is put into a player's queue was heard. -/
  queued : accepted s.bot = (s.observed.filter Observation.queued).map Observation.message
  /-- The bot is one that receives these commands. -/
  bot : (Bot.zorkbot cfg.setup).Reachable (fun _ _ => True) s.bot

/-! ## Steps -/

/-- What one step can do. -/
inductive Steps (cfg : ReceptionConfig) (s : Reception) : Reception → Prop
  | receives {m : Mailbox} (handed : s.mailbox.Handed → m.Handed)
      (received : s.mailbox.received <+: m.received) (fetched : m.fetched = s.mailbox.fetched) :
      Steps cfg s { s with mailbox := m }
  | fetches {m : Mailbox} {due : List (Nat × Handler)} (late : s.mailbox.phase.early = false)
      (fetched : s.mailbox.fetch cfg = some (m, due)) :
      Steps cfg s { s with mailbox := m, due := s.due ++ due }
  /-- A handler raises before it hears anything. -/
  | fails {k : Nat} {sightings : List (Str × Option Str)} :
      Steps cfg s { s with due := s.due.eraseIdx k, sightings := sightings }
  | observes {k : Nat} {o : Observation} {packet : Incoming} {contacts : Contacts}
      {windows : MessageWindows} {told : Dispatched} {sightings : List (Str × Option Str)}
      {now : Int}
      (due : s.due[k]? = some o.key) (there : s.mailbox.received[o.arrival]? = some packet)
      (reads : o.message = packet.message contacts)
      (recorded : s.windows.record (observeRx o.at_ o.message) = some windows)
      (dispatches : Dispatches cfg o.message s.bot o.handler told)
      (counting : o.counting = told.counting) (queued : o.queued = told.queued) :
      Steps cfg s
        ({ s with
          due := s.due.eraseIdx k
          sightings := sightings
          windows := windows
          calls := s.calls ++ [observeRx o.at_ o.message]
          bot := told.bot
          cooldown := told.cooldown
          log := s.log ++ told.log.map fun call => (now, call) }.heed now o)
  | replies {k : Nat} {o : Observation} {now : Int} (there : s.replying[k]? = some o) :
      Steps cfg s ({ s with replying := s.replying.eraseIdx k }.count now o)
  | loses {k : Nat} : Steps cfg s { s with replying := s.replying.eraseIdx k }
  | transmits {call : WindowCall} {windows : MessageWindows} (sent : call.isRx = false)
      (recorded : s.windows.record call = some windows) :
      Steps cfg s { s with windows := windows, calls := s.calls ++ [call] }
  | goesOn {b : ZorkBot} {act : ZorkBot.Act} (same : b.gate.accepted = s.bot.gate.accepted)
      (stepped : s.bot.step cfg.setup act = some b) : Steps cfg s { s with bot := b }

theorem steps_of_step {a : Act} (taken : s.step cfg a = some t) : Steps cfg s t := by
  cases a with
  | receive packet =>
      simp only [step, Option.some.injEq] at taken
      exact taken ▸ .receives (·.receive packet) (List.prefix_append _ _) rfl
  | forget k =>
      simp only [step] at taken
      split at taken
      · rw [Option.some.injEq] at taken
        exact taken ▸ .receives (·.forget (List.eraseIdx_sublist ..)) List.prefix_rfl rfl
      · cases taken
  | start =>
      simp only [step] at taken
      split at taken
      · next offline =>
          rw [Option.some.injEq] at taken
          exact taken ▸ .receives (·.start offline) List.prefix_rfl rfl
      · cases taken
  | flush answer =>
      simp only [step] at taken
      split at taken
      · next flushing =>
          obtain ⟨m, flushed, rfl⟩ := Option.map_eq_some_iff.mp taken
          obtain ⟨received, fetched⟩ := Mailbox.flush_keeps flushed
          exact .receives (·.flush flushing flushed) (received ▸ List.prefix_rfl) fetched
      · cases taken
  | fetch =>
      simp only [step] at taken
      split at taken
      · cases taken
      · next late =>
          obtain ⟨⟨m, due⟩, fetched, rfl⟩ := Option.map_eq_some_iff.mp taken
          exact .fetches (Bool.eq_false_iff.mpr late) fetched
  | call k contacts at_ clock now =>
      simp only [step] at taken
      split at taken
      · next i h due =>
          obtain ⟨packet, there, rfl⟩ := Option.map_eq_some_iff.mp taken
          simp only [Reception.call]
          split
          · exact .fails
          · next windows recorded =>
              exact .observes (o := ⟨i, h, packet.message contacts, at_, _, _⟩) due there rfl
                recorded (dispatches h) rfl rfl
      · cases taken
  | replied k raises now =>
      obtain ⟨o, there, rfl⟩ := Option.map_eq_some_iff.mp taken
      dsimp only
      split
      · exact .loses
      · exact .replies there
  | transmit at_ transport channelIdx pubkeyPrefix text =>
      obtain ⟨windows, recorded, rfl⟩ := Option.map_eq_some_iff.mp taken
      exact .transmits rfl recorded
  | bot act =>
      cases act <;> simp only [step, reduceCtorEq] at taken <;>
        obtain ⟨b, stepped, rfl⟩ := Option.map_eq_some_iff.mp taken <;>
        exact .goesOn (ZorkBot.uncalled (by simp) stepped).2 stepped
  | stop =>
      simp only [step] at taken
      split at taken
      · next listening =>
          rw [Option.some.injEq] at taken
          exact taken ▸ .receives (·.stop listening) List.prefix_rfl rfl
      · cases taken

section

variable (now : Int) (o : Observation) (s : Reception)

@[simp]
theorem heed_mailbox : (s.heed now o).mailbox = s.mailbox := by
  unfold heed
  cases o.counting <;> rfl

@[simp]
theorem heed_due : (s.heed now o).due = s.due := by
  unfold heed
  cases o.counting <;> rfl

@[simp]
theorem heed_observed : (s.heed now o).observed = s.observed ++ [o] := by
  unfold heed
  cases o.counting <;> rfl

@[simp]
theorem heed_counted : (s.heed now o).counted =
    s.counted ++ if o.counting = .now then [o] else [] := by
  unfold heed
  cases o.counting <;> first | rfl | exact (List.append_nil _).symm

@[simp]
theorem heed_replying : (s.heed now o).replying =
    s.replying ++ if o.counting = .later then [o] else [] := by
  unfold heed
  cases o.counting <;> first | rfl | exact (List.append_nil _).symm

@[simp]
theorem heed_log : (s.heed now o).log =
    s.log ++ if o.counting = .now then [(now, .received o.message)] else [] := by
  unfold heed
  cases o.counting <;> first | rfl | exact (List.append_nil _).symm

@[simp]
theorem heed_windows : (s.heed now o).windows = s.windows := by
  unfold heed
  cases o.counting <;> rfl

@[simp]
theorem heed_calls : (s.heed now o).calls = s.calls := by
  unfold heed
  cases o.counting <;> rfl

@[simp]
theorem heed_bot : (s.heed now o).bot = s.bot := by
  unfold heed
  cases o.counting <;> rfl

end

/-! ## Who is called -/

/-- The handlers that are called and those that were. -/
structure Called (cfg : ReceptionConfig) (s : Reception) : Prop where
  handed : s.mailbox.Handed
  once : (s.due ++ s.observed.map Observation.key).Nodup
  suits : ∀ x ∈ s.due ++ s.observed.map Observation.key, x.1 ∈ s.mailbox.fetched ∧
    ∃ packet, s.mailbox.received[x.1]? = some packet ∧ x.2 ∈ handlers cfg packet
  reads : ∀ o ∈ s.observed, ∃ packet contacts,
    s.mailbox.received[o.arrival]? = some packet ∧ o.message = packet.message contacts

theorem nodup_handlers (cfg : ReceptionConfig) (packet : Incoming) :
    (handlers cfg packet).Nodup := by
  unfold handlers
  split
  · split <;> split <;> simp
  · exact List.nodup_singleton _

/-- What is fetched was not fetched before. -/
theorem fetch_spec {m next : Mailbox} {due : List (Nat × Handler)} (handed : m.Handed)
    (fetched : m.fetch cfg = some (next, due)) :
    ∃ i, i ∉ m.fetched ∧ next.fetched = m.fetched ++ [i] ∧ next.received = m.received ∧
      ∃ called : List Handler, due = called.map (fun h => (i, h)) ∧ called.Nodup ∧
        ∀ h ∈ called, ∃ packet, m.received[i]? = some packet ∧ h ∈ handlers cfg packet := by
  simp only [Mailbox.fetch] at fetched
  split at fetched
  · next i rest line =>
      rw [Option.some.injEq, Prod.mk.injEq] at fetched
      obtain ⟨rfl, rfl⟩ := fetched
      refine ⟨i, fun before => ?_, rfl, rfl, _, rfl, ?_⟩
      · have ordered := (List.pairwise_append.mp handed.ordered).2.2
        have less := ordered i (List.mem_append_right _ before) i (by simp [line])
        exact Nat.lt_irrefl i less
      · split
        · cases there : m.received[i]? with
          | none => exact ⟨.nil, fun h member => absurd member List.not_mem_nil⟩
          | some packet =>
              exact ⟨nodup_handlers cfg packet, fun h member => ⟨packet, rfl, member⟩⟩
        · exact ⟨.nil, fun h member => absurd member List.not_mem_nil⟩
  · cases fetched

theorem Called.step (called : Called cfg s) (steps : Steps cfg s t) : Called cfg t := by
  obtain ⟨handed, once, suits, reads⟩ := called
  cases steps with
  | @receives m keeps received fetched =>
      obtain ⟨more, received⟩ := received
      have still : ∀ (i : Nat) packet, s.mailbox.received[i]? = some packet →
          m.received[i]? = some packet := by
        intro i packet there
        rw [← received, List.getElem?_append_left (List.getElem?_eq_some_iff.mp there).1]
        exact there
      refine ⟨keeps handed, once, fun x member => ?_, fun o there => ?_⟩
      · obtain ⟨old, packet, there, suited⟩ := suits x member
        exact ⟨fetched ▸ old, packet, still _ _ there, suited⟩
      · obtain ⟨packet, contacts, known, reads⟩ := reads o there
        exact ⟨packet, contacts, still _ _ known, reads⟩
  | @fetches m due late fetched =>
      obtain ⟨i, fresh, grown, received, called, rfl, distinct, each⟩ := fetch_spec handed fetched
      have all : (s.due ++ called.map (fun h => (i, h)) ++ s.observed.map Observation.key).Perm
          ((called.map fun h => (i, h)) ++ (s.due ++ s.observed.map Observation.key)) := by
        rw [← List.append_assoc]
        exact List.perm_append_comm.append_right _
      constructor
      · exact handed.fetch late fetched
      · apply all.nodup_iff.mpr
        apply List.nodup_append'.mpr
        refine ⟨distinct.map fun h h' same => (Prod.mk.inj same).2, once, fun x new old => ?_⟩
        obtain ⟨h, -, rfl⟩ := List.mem_map.mp new
        exact fresh (suits _ old).1
      · intro x member
        change x.1 ∈ m.fetched ∧ ∃ packet, m.received[x.1]? = some packet ∧ _
        rw [grown, received]
        rcases List.mem_append.mp (all.mem_iff.mp member) with new | old
        · obtain ⟨h, among, rfl⟩ := List.mem_map.mp new
          exact ⟨List.mem_append_right _ (List.mem_singleton_self i), each h among⟩
        · obtain ⟨known, suited⟩ := suits x old
          exact ⟨List.mem_append_left _ known, suited⟩
      · intro o there
        change ∃ packet contacts, m.received[o.arrival]? = some packet ∧ _
        rw [received]
        exact reads o there
  | @fails k =>
      have less := (List.eraseIdx_sublist s.due k).append
        (List.Sublist.refl (s.observed.map Observation.key))
      exact ⟨handed, once.sublist less, fun x member => suits x (less.subset member), reads⟩
  | @observes k o packet contacts windows told sightings now due there read =>
      obtain ⟨bound, here⟩ := List.getElem?_eq_some_iff.mp due
      have all : (s.due.eraseIdx k ++ (s.observed ++ [o]).map Observation.key).Perm
          (s.due ++ s.observed.map Observation.key) := by
        have first := (List.getElem_cons_eraseIdx_perm bound).append_right
          (s.observed.map Observation.key)
        rw [here] at first
        apply List.Perm.trans _ first
        rw [List.map_append, List.map_singleton, ← List.append_assoc]
        exact List.perm_append_singleton _ _
      constructor
      · rw [heed_mailbox]
        exact handed
      · rw [heed_due, heed_observed]
        exact all.nodup_iff.mpr once
      · rw [heed_due, heed_observed, heed_mailbox]
        exact fun x member => suits x (all.mem_iff.mp member)
      · rw [heed_observed, heed_mailbox]
        intro o' member
        rcases List.mem_append.mp member with old | new
        · exact reads o' old
        · rw [List.mem_singleton.mp new]
          exact ⟨packet, contacts, there, read⟩
  | replies | loses | transmits | goesOn => exact ⟨handed, once, suits, reads⟩

/-! ## What is counted -/

/-- An observation is counted at once, or when its reply was sent, or not at all. -/
structure Counts (s : Reception) : Prop where
  direct : ∀ o ∈ s.observed, o.handler = .dm → o.counting = .now
  channel : ∀ o ∈ s.observed, o.handler = .channel → (o.counting = .now ↔ o.queued = true)
  told : ∀ o ∈ s.observed, o.counting = .now → o ∈ s.counted
  once : (s.counted ++ s.replying).Subperm (s.observed.filter fun o => o.counting ≠ .never)
  log : logged s.log = s.counted.map Observation.message

theorem logged_count (entries : List (Int × LogCall)) (now : Int) (message : IncomingMessage) :
    logged (entries ++ [(now, LogCall.received message)]) = logged entries ++ [message] :=
  List.filterMap_append

/-- What the sink is told of a dispatch is not counted. -/
theorem logged_quiet {told : List LogCall} (quiet : ∀ call ∈ told, ∀ m, call ≠ .received m)
    (entries : List (Int × LogCall)) (now : Int) :
    logged (entries ++ told.map fun call => (now, call)) = logged entries := by
  have none : logged (told.map fun call => (now, call)) = [] := by
    rw [logged, List.filterMap_map]
    apply List.filterMap_eq_nil_iff.mpr
    intro call there
    cases call with
    | received message => exact absurd rfl (quiet _ there message)
    | _ => rfl
  rw [logged, List.filterMap_append]
  change logged entries ++ logged _ = _
  rw [none, List.append_nil]

/-- An observation is added, and so is what becomes of it. -/
theorem Counts.heed (counts : Counts s) {o : Observation}
    (direct : o.handler = .dm → o.counting = .now)
    (channel : o.handler = .channel → (o.counting = .now ↔ o.queued = true)) (now : Int) :
    Counts (s.heed now o) := by
  obtain ⟨directs, channels, told, once, log⟩ := counts
  have either : ∀ o' ∈ (s.heed now o).observed, o' ∈ s.observed ∨ o' = o := by
    intro o' there
    rw [heed_observed] at there
    exact (List.mem_append.mp there).imp_right List.mem_singleton.mp
  constructor
  · intro o' there
    rcases either o' there with old | rfl
    · exact directs o' old
    · exact direct
  · intro o' there
    rcases either o' there with old | rfl
    · exact channels o' old
    · exact channel
  · intro o' there at_once
    rw [heed_counted]
    rcases either o' there with old | rfl
    · exact List.mem_append_left _ (told o' old at_once)
    · rw [if_pos at_once]
      exact List.mem_append_right _ (List.mem_singleton_self _)
  · have added : ((s.heed now o).counted ++ (s.heed now o).replying).Perm
        (s.counted ++ s.replying ++ [o].filter fun o => o.counting ≠ .never) := by
      rw [heed_counted, heed_replying, List.filter_singleton]
      cases o.counting with
      | now =>
          change (s.counted ++ [o] ++ (s.replying ++ [])).Perm (s.counted ++ s.replying ++ [o])
          rw [List.append_nil, List.append_assoc, List.append_assoc]
          exact List.perm_append_comm.append_left _
      | later =>
          change (s.counted ++ [] ++ (s.replying ++ [o])).Perm (s.counted ++ s.replying ++ [o])
          rw [List.append_nil, List.append_assoc]
      | never =>
          change (s.counted ++ [] ++ (s.replying ++ [])).Perm (s.counted ++ s.replying ++ [])
          rw [List.append_nil, List.append_nil, List.append_nil]
    rw [heed_observed, List.filter_append]
    exact added.subperm.trans ((List.subperm_append_right _).mpr once)
  · rw [heed_log, heed_counted]
    split
    · rw [logged_count, log, List.map_append, List.map_singleton]
    · rw [List.append_nil, List.append_nil]
      exact log

theorem Counts.step (counts : Counts s) (steps : Steps cfg s t) : Counts t := by
  obtain ⟨direct, channel, told, once, log⟩ := counts
  cases steps with
  | @observes k o packet contacts windows outcome sightings now due there read recorded dispatches
      counting queued =>
      apply Counts.heed
      · exact ⟨direct, channel, told, once, (logged_quiet dispatches.quiet _ _).trans log⟩
      · exact fun dm => counting.trans (dispatches.direct dm)
      · intro here
        rw [counting, queued]
        exact dispatches.channel here
  | @replies k o now there =>
      obtain ⟨bound, here⟩ := List.getElem?_eq_some_iff.mp there
      refine ⟨direct, channel, fun o' member now => ?_, ?_, ?_⟩
      · exact List.mem_append_left _ (told o' member now)
      · have same : (s.counted ++ [o] ++ s.replying.eraseIdx k).Perm (s.counted ++ s.replying) := by
          have first := List.getElem_cons_eraseIdx_perm bound
          rw [here] at first
          rw [List.append_assoc, List.singleton_append]
          exact first.append_left _
        exact same.subperm.trans once
      · change logged (s.log ++ [(now, .received o.message)]) = (s.counted ++ [o]).map _
        rw [logged_count, log, List.map_append, List.map_singleton]
  | @loses k =>
      have less := (List.Sublist.refl s.counted).append (List.eraseIdx_sublist s.replying k)
      exact ⟨direct, channel, told, less.subperm.trans once, log⟩
  | receives | fetches | fails | transmits | goesOn => exact ⟨direct, channel, told, once, log⟩

/-! ## Windows and queues -/

/-- The windows are filled with what is heard and sent, and what is queued was heard. -/
structure Shows (cfg : ReceptionConfig) (s : Reception) : Prop where
  windows : cfg.windows.recordAll s.calls = some s.windows
  shown : s.calls.filter WindowCall.isRx = s.observed.map fun o => observeRx o.at_ o.message
  queued : accepted s.bot = (s.observed.filter Observation.queued).map Observation.message
  bot : (Bot.zorkbot cfg.setup).Reachable (fun _ _ => True) s.bot

theorem Shows.step (shows_ : Shows cfg s) (steps : Steps cfg s t) : Shows cfg t := by
  obtain ⟨filled, shown, queued, bot⟩ := shows_
  cases steps with
  | @observes k o packet contacts windows told sightings now due there read recorded dispatches
      counting own =>
      constructor
      · rw [heed_calls, heed_windows, MessageWindows.recordAll_append_singleton, filled]
        exact recorded
      · rw [heed_calls, heed_observed, List.filter_append, shown, List.map_append]
        rfl
      · rw [heed_bot, heed_observed, List.filter_append, List.map_append, ← queued,
          dispatches.accepted, ← own, List.filter_singleton]
        cases o.queued <;> rfl
      · rw [heed_bot]
        exact bot.trans dispatches.path
  | transmits sent recorded =>
      refine ⟨?_, ?_, queued, bot⟩
      · rw [MessageWindows.recordAll_append_singleton, filled]
        exact recorded
      · rw [List.filter_append, List.filter_cons_of_neg (by rw [sent]; exact Bool.false_ne_true)]
        exact (List.append_nil _).trans shown
  | goesOn same stepped =>
      refine ⟨filled, shown, ?_, bot.step trivial stepped⟩
      rw [accepted, same]
      exact queued
  | receives | fetches | fails | replies | loses => exact ⟨filled, shown, queued, bot⟩

/-! ## The whole run -/

/-- What every step keeps. -/
structure Sound (cfg : ReceptionConfig) (s : Reception) : Prop where
  called : Called cfg s
  counts : Counts s
  shows_ : Shows cfg s

theorem sound (reached : (reception cfg cooldown).Reachable (fun _ _ => True) s) : Sound cfg s := by
  apply reached.invariant (motive := Sound cfg)
  · have shows_ : Shows cfg (init cfg cooldown) := ⟨rfl, rfl, rfl, .refl _⟩
    refine ⟨⟨Mailbox.handed_init, .nil, ?_, ?_⟩, ⟨?_, ?_, ?_, .refl _, rfl⟩, shows_⟩
    all_goals exact fun _ there => absurd there List.not_mem_nil
  · intro s a t _ sound _ taken
    have steps := steps_of_step taken
    exact ⟨sound.called.step steps, sound.counts.step steps, sound.shows_.step steps⟩

/-- In every run, whatever the radio loses and however the handlers interleave: what was received
before the runner was started is not heard if the flush is not cut short, what comes later is heard
once by each handler for it, and windows, statistics and queues have what was heard. -/
theorem reception_accounts (reached : (reception cfg cooldown).Reachable (fun _ _ => True) s) :
    s.Accounts cfg := by
  obtain ⟨⟨handed, once, suits, reads⟩, counts, shows_⟩ := sound reached
  have heard : ∀ o ∈ s.observed, o.key ∈ s.due ++ s.observed.map Observation.key :=
    fun o there => List.mem_append_right _ (List.mem_map_of_mem there)
  constructor
  · exact (List.pairwise_append.mp handed.ordered).1
  · intro n told
    cases early : s.mailbox.phase.early with
    | true =>
        rw [(handed.early early).2.2.1] at told
        cases told
    | false =>
        rw [(handed.late early).1, Option.some.injEq] at told
        exact ⟨told.symm, told ▸ handed.few⟩
  · intro whole o there
    have fetched := (suits _ (heard o there)).1
    cases early : s.mailbox.phase.early with
    | true =>
        rw [(handed.early early).1] at fetched
        cases fetched
    | false => exact (handed.late early).2 whole _ (List.mem_append_left _ fetched)
  · exact (List.nodup_append'.mp once).2.1
  · intro o there
    obtain ⟨fetched, packet, known, suited⟩ := suits _ (heard o there)
    obtain ⟨packet', contacts, known', read⟩ := reads o there
    have one := known'.symm.trans known
    rw [Option.some.injEq] at one
    exact ⟨fetched, packet, contacts, known, suited, one ▸ read⟩
  · exact shows_.windows
  · exact shows_.shown
  · exact fun o there dm => counts.told o there (counts.direct o there dm)
  · exact fun o there here queued => counts.told o there ((counts.channel o there here).mpr queued)
  · exact (List.sublist_append_left _ _).subperm.trans counts.once
  · exact counts.log
  · exact shows_.queued
  · exact shows_.bot

/-- The bot on channel 0. -/
def onChannel : ReceptionConfig where
  setup := ZorkBot.small 2
  name := "zorkbot".toList
  channel := 0
  bots := ⟨false, none⟩
  window := 20
  maxContacts := 50
  windows := ⟨20, 50, "zorkbot".toList, Table.empty.set 0 [], .empty⟩
  made := rfl

/-- A message of a player on the channel, with nobody in the contact table. -/
def spoken (text : String) : Incoming := .channel ⟨text.toList, none, 0⟩

def nobody : Contacts := ⟨fun _ => none, fun _ => none⟩

/-- Bob asks for a session before the bot is up, and Alice when it is. -/
theorem reception_accounts_restarted :
    ∃ s : Reception, (s.mailbox.backlog = 1 ∧ s.mailbox.failed = false ∧
      s.counted.map (·.arrival) = [1] ∧ (accepted s.bot).length = 1) ∧ s.Accounts onChannel := by
  obtain ⟨s, reached, state⟩ := System.reaches (reception onChannel (.init 0)) (fun _ _ => True)
    (fun s => s.mailbox.backlog = 1 ∧ s.mailbox.failed = false ∧
      s.counted.map (·.arrival) = [1] ∧ (accepted s.bot).length = 1)
    [.receive (spoken "Bob: !start"), .start, .flush .message, .flush .noMoreMsgs,
      .receive (spoken "Alice: !start"), .fetch, .call 0 nobody 5 5 5]
    (fun _ _ _ => trivial) (by decide)
  exact ⟨s, state, reception_accounts (reached.mono fun _ _ _ => trivial)⟩

end Reception

end Zorkbot.Admin
