/-
# What retention leaves alone

`prune_retention` deletes rows that are older than a cutoff, at any time between what the sink
writes. Whoever asks about times since the latest cutoff gets the answers of a store that was never
pruned: the charts, the pages of the history and the sessions that are open. Statements may be lost
on the way, each for itself; then they are lost to both stores.
-/

import Zorkbot.Admin.Transports
import Zorkbot.Bot.Journal
import Zorkbot.Data.Retained

namespace Zorkbot.Admin

open Buckets (Within)
open Transition
open Zorkbot.Bot (EndReason Journal Known SessionRecord SinkEvent Str ZorkBot)

/-! ## The whole store -/

/-- The tables of the event log. -/
structure Ledger where
  store : SessionStore
  messages : List MessageRow
  commands : List CommandRow

/-- What happens to the tables. -/
inductive LedgerEntry
  /-- The sink is told something of a session, and some of its statements are lost. -/
  | told (e : SinkEvent) (now : Int) (lost : EventStatement → Bool)
  /-- `player_seen`. -/
  | seen (player : Str) (name : Option Str) (now : Int)
  /-- A message or a command is written down. -/
  | traffic (call : LogCall) (now : Int)
  /-- `prune_retention`. -/
  | prune (cutoff : Int)

namespace LedgerEntry

/-- What the sink was told of sessions. -/
def event : LedgerEntry → Option SinkEvent
  | .told e .. => some e
  | _ => none

/-- What the clock showed. -/
def time : LedgerEntry → Option Int
  | .told _ now _ | .seen _ _ now | .traffic _ now => some now
  | .prune _ => none

def isPrune : LedgerEntry → Bool
  | .prune _ => true
  | _ => false

end LedgerEntry

namespace Ledger

def stats (l : Ledger) : StatsTables := ⟨l.store.tables.sessions, l.messages, l.commands⟩

/-- A statement is written, or is lost. -/
def write (run : Str) (lost : EventStatement → Bool) (store : SessionStore)
    (statement : EventStatement) : SessionStore :=
  if lost statement then store else store.change (.statement run statement)

def enter (run : Str) (speaker : Speaker) (l : Ledger) : LedgerEntry → Ledger
  | .told e now lost =>
      { l with store := (eventStatements now e).foldl (write run lost) l.store }
  | .seen player name now =>
      { l with store := l.store.change (.statement run (.upsertPlayer player name now)) }
  | .traffic call now =>
      let written := l.stats.write speaker now call
      { l with
        messages := written.messages
        commands := written.commands }
  | .prune cutoff =>
      let pruned := l.stats.prune cutoff
      { store := l.store.prune cutoff
        messages := pruned.messages
        commands := pruned.commands }

/-- The tables after a run. -/
def record (run : Str) (speaker : Speaker) (l : Ledger) (entries : List LedgerEntry) : Ledger :=
  entries.foldl (enter run speaker) l

end Ledger

/-! ## Rows that are asked for -/

/-- The session is open, or has ended since. -/
def SessionRow.since (from_ : Int) (row : SessionRow) : Bool := row.endedAt.all (from_ ≤ ·)

/-- A store that was pruned, next to one that was not. -/
structure SessionStore.Pruned (from_ : Int) (kept all : SessionStore) : Prop where
  players : kept.players = all.players
  sequence : kept.sequence = all.sequence
  sessions : Retains (fun row => row.since from_) kept.sessions all.sessions

/-- All tables, up to what is older than a time. -/
structure Ledger.Pruned (from_ : Int) (kept all : Ledger) : Prop where
  store : kept.store.Pruned from_ all.store
  messages : Retains (fun row => decide (from_ ≤ row.at_)) kept.messages all.messages
  commands : Retains (fun row => decide (from_ ≤ row.at_)) kept.commands all.commands

/-- The rows of a run, by what was told of their numbers. -/
def SessionStore.Follows (run : Str) (journal : Journal) (store : SessionStore) : Prop :=
  ∀ row ∈ store.sessions, row.botRunId = run →
    journal row.sessionNum ≠ .unheard ∧
      ∀ record, journal row.sessionNum = .active record → row.endedAt = none

/-- A session has ended after it has started, as far as the clock did not go back. -/
structure SessionStore.Steady (run : Str) (now : Int) (store : SessionStore) : Prop where
  closed : ∀ row ∈ store.sessions, ∀ endedAt, row.endedAt = some endedAt → row.startedAt ≤ endedAt
  own : ∀ row ∈ store.sessions, row.botRunId = run → row.startedAt ≤ now

/-! ## One statement -/

/-- A session that was heard of stays so, and is active only if it was. -/
theorem learn_heard {known next : Known} {e : SinkEvent} (learned : known.learn e = some next)
    (heard : known ≠ .unheard) : next ≠ .unheard ∧
      ∀ record, next = .active record → ∃ old, known = .active old := by
  cases known with
  | unheard => exact absurd rfl heard
  | ended =>
      cases e with
      | transcript =>
          rw [← Option.some.inj learned]
          exact ⟨nofun, nofun⟩
      | sessionStarted | sessionEnded | watchersChanged => cases learned
  | active old =>
      refine ⟨?_, fun _ _ => ⟨old, rfl⟩⟩
      rintro rfl
      cases e with
      | sessionStarted | transcript => cases learned
      | sessionEnded | watchersChanged =>
          obtain ⟨-, other⟩ := Option.ite_none_right_eq_some.mp learned
          cases other

theorem learn_started {known next : Known} {record : SessionRecord}
    (learned : known.learn (.sessionStarted record) = some next) :
    known = .unheard ∧ next = .active record := by
  cases known with
  | unheard =>
      obtain ⟨-, is⟩ := Option.ite_none_right_eq_some.mp learned
      exact ⟨rfl, (Option.some.inj is).symm⟩
  | active | ended => cases learned

theorem learn_ended {known next : Known} {record : SessionRecord} {reason : EndReason}
    (learned : known.learn (.sessionEnded record reason) = some next) :
    (∃ old, known = .active old) ∧ next = .ended := by
  cases known with
  | active old =>
      obtain ⟨-, is⟩ := Option.ite_none_right_eq_some.mp learned
      exact ⟨⟨old, rfl⟩, (Option.some.inj is).symm⟩
  | unheard | ended => cases learned

namespace SessionStore

variable {run : Str} {from_ now : Int} {store kept all : SessionStore}
  {statement : EventStatement} {journal next : Journal}

/-- What a statement does to the rows of the sessions. -/
inductive Effect (run : Str) (store : SessionStore) (statement : EventStatement) :
    List StoredSession → Prop
  | none : Effect run store statement store.sessions
  | inserts {num : Int} {player : Str} {startedAt : Int}
      (is : statement = .insertSession num player startedAt) :
      Effect run store statement (store.sessions ++
        [⟨⟨run, num, player, startedAt, .none, .none, 0⟩, store.sequence + 1⟩])
  | ends {num endedAt : Int} {reason : EndReason} (is : statement = .endSession num endedAt reason) :
      Effect run store statement (store.sessions.map fun row =>
        if row.botRunId = run ∧ row.sessionNum = num then
          { row with
            endedAt := some endedAt
            endReason := some reason }
        else row)
  | raises {num : Int} {watchers : Nat} (is : statement = .raisePeakWatchers num watchers) :
      Effect run store statement (store.sessions.map fun row =>
        if row.botRunId = run ∧ row.sessionNum = num then
          { row with peakWatchers := max row.peakWatchers watchers }
        else row)

theorem effect (run : Str) (store : SessionStore) (statement : EventStatement) :
    Effect run store statement (store.change (.statement run statement)).sessions := by
  cases statement with
  | insertMessage | insertCommand | upsertPlayer => exact .none
  | endSession => exact .ends rfl
  | raisePeakWatchers => exact .raises rfl
  | insertSession num player startedAt =>
      simp only [change, execute, insertSession]
      split
      · exact .none
      · split
        · exact .none
        · split
          · exact .inserts rfl
          · exact .none

/-- What was told of a number allows a statement about it. -/
def Allows (journal : Journal) : EventStatement → Prop
  | .insertSession num .. => journal num = .unheard
  | .endSession num .. => ∃ record, journal num = .active record
  | _ => True

/-- Both stores execute a statement. -/
theorem Pruned.change (pruned : Pruned from_ kept all) (follows : all.Follows run journal)
    (allowed : Allows journal statement) :
    Pruned from_ (kept.change (.statement run statement))
      (all.change (.statement run statement)) := by
  obtain ⟨players, sequence, sessions⟩ := pruned
  cases statement with
  | insertMessage | insertCommand => exact ⟨players, sequence, sessions⟩
  | upsertPlayer player name seenAt =>
      refine ⟨?_, sequence, sessions⟩
      simp only [change, execute, Option.getD_some, players]
  | endSession num endedAt reason =>
      refine ⟨players, sequence, sessions.map fun row there matter => ?_⟩
      dsimp only at matter
      split at matter
      · next own =>
        obtain ⟨record, active⟩ := allowed
        have open_ := (follows row there own.1).2 record (own.2 ▸ active)
        rw [SessionRow.since, open_]
        rfl
      · exact matter
  | raisePeakWatchers num watchers =>
      refine ⟨players, sequence, sessions.map fun row _ matter => ?_⟩
      dsimp only at matter
      split at matter
      · exact matter
      · exact matter
  | insertSession num player startedAt =>
      have vacant {store : SessionStore} (listed : ∀ row ∈ store.sessions, row ∈ all.sessions) :
          ¬(store.sessions.any fun row => row.botRunId = run ∧ row.sessionNum = num) = true := by
        rw [List.any_eq_true]
        rintro ⟨row, there, same⟩
        obtain ⟨own, rfl⟩ := of_decide_eq_true same
        exact (follows row (listed row there) own).1 allowed
      simp only [change, execute, insertSession, players, sequence]
      rw [if_neg (vacant fun row there => sessions.sublist.subset there),
        if_neg (vacant fun row => id)]
      split
      · exact ⟨players, sequence, sessions⟩
      · split
        · exact ⟨rfl, rfl, sessions.append _⟩
        · exact ⟨players, sequence, sessions⟩

/-- A statement agrees with what was told by then. -/
def Agrees (journal : Journal) : EventStatement → Prop
  | .insertSession num .. => journal num ≠ .unheard
  | .endSession num .. => ∀ record, journal num ≠ .active record
  | _ => True

theorem Follows.change (follows : store.Follows run journal) (agrees : Agrees journal statement) :
    (store.change (.statement run statement)).Follows run journal := by
  have effect := store.effect run statement
  intro row there own
  generalize (store.change (.statement run statement)).sessions = rows at effect there
  cases effect with
  | none => exact follows row there own
  | inserts is =>
      subst is
      rcases List.mem_append.mp there with old | new
      · exact follows row old own
      · rw [List.mem_singleton.mp new]
        exact ⟨agrees, fun _ _ => rfl⟩
  | ends is =>
      subst is
      obtain ⟨before, listed, rfl⟩ := List.mem_map.mp there
      split at own
      · next mine =>
        rw [if_pos mine]
        refine ⟨(follows before listed mine.1).1, fun record active => ?_⟩
        exact absurd (mine.2 ▸ active) (agrees record)
      · next other =>
        rw [if_neg other]
        exact follows before listed own
  | raises is =>
      obtain ⟨before, listed, rfl⟩ := List.mem_map.mp there
      split at own
      · next mine =>
        rw [if_pos mine]
        exact follows before listed mine.1
      · next other =>
        rw [if_neg other]
        exact follows before listed own

/-- What is told of a session later does not contradict its rows. -/
theorem Follows.learn {e : SinkEvent} (follows : store.Follows run journal)
    (entered : journal.enter e = some next) : store.Follows run next := by
  obtain ⟨known, learned, rfl⟩ := Option.map_eq_some_iff.mp entered
  intro row there own
  obtain ⟨heard, active⟩ := follows row there own
  by_cases here : row.sessionNum = e.num
  · rw [here] at heard active
    rw [here, Function.update_self]
    obtain ⟨still, before⟩ := learn_heard learned heard
    refine ⟨still, fun record is => ?_⟩
    obtain ⟨old, was⟩ := before record is
    exact active old was
  · rw [Function.update_of_ne here]
    exact ⟨heard, active⟩

/-- A statement bears the time at which it was made. -/
def Stamped (now : Int) : EventStatement → Prop
  | .insertSession _ _ startedAt => startedAt = now
  | .endSession _ endedAt _ => endedAt = now
  | _ => True

theorem Steady.later {later : Int} (steady : store.Steady run now) (le : now ≤ later) :
    store.Steady run later :=
  ⟨steady.closed, fun row there own => (steady.own row there own).trans le⟩

theorem Steady.change (steady : store.Steady run now) (stamped : Stamped now statement) :
    (store.change (.statement run statement)).Steady run now := by
  have effect := store.effect run statement
  constructor
  · intro row there endedAt ended
    generalize (store.change (.statement run statement)).sessions = rows at effect there
    cases effect with
    | none => exact steady.closed row there endedAt ended
    | inserts =>
        rcases List.mem_append.mp there with old | new
        · exact steady.closed row old endedAt ended
        · rw [List.mem_singleton.mp new] at ended
          cases ended
    | ends is =>
        subst is
        obtain ⟨before, listed, rfl⟩ := List.mem_map.mp there
        split at ended
        · next mine =>
          rw [if_pos mine]
          cases ended
          exact (steady.own before listed mine.1).trans_eq stamped.symm
        · next other =>
          rw [if_neg other]
          exact steady.closed before listed endedAt ended
    | raises is =>
        obtain ⟨before, listed, rfl⟩ := List.mem_map.mp there
        split at ended
        · next mine =>
          rw [if_pos mine]
          exact steady.closed before listed endedAt ended
        · next other =>
          rw [if_neg other]
          exact steady.closed before listed endedAt ended
  · intro row there own
    generalize (store.change (.statement run statement)).sessions = rows at effect there
    cases effect with
    | none => exact steady.own row there own
    | inserts is =>
        subst is
        rcases List.mem_append.mp there with old | new
        · exact steady.own row old own
        · rw [List.mem_singleton.mp new]
          exact stamped.le
    | ends | raises =>
        obtain ⟨before, listed, rfl⟩ := List.mem_map.mp there
        split at own
        · next mine =>
          rw [if_pos mine]
          exact steady.own before listed mine.1
        · next other =>
          rw [if_neg other]
          exact steady.own before listed own

/-! ## What is told at one time -/

variable {e : SinkEvent} {lost : EventStatement → Bool}

theorem Pruned.write (lost : EventStatement → Bool) (pruned : Pruned from_ kept all)
    (follows : all.Follows run journal) (allowed : Allows journal statement) :
    Pruned from_ (Ledger.write run lost kept statement) (Ledger.write run lost all statement) := by
  rw [Ledger.write, Ledger.write]
  split
  · exact pruned
  · exact pruned.change follows allowed

theorem Follows.write (follows : store.Follows run journal) (agrees : Agrees journal statement) :
    (Ledger.write run lost store statement).Follows run journal := by
  rw [Ledger.write]
  split
  · exact follows
  · exact follows.change agrees

theorem Steady.write (steady : store.Steady run now) (stamped : Stamped now statement) :
    (Ledger.write run lost store statement).Steady run now := by
  rw [Ledger.write]
  split
  · exact steady
  · exact steady.change stamped

theorem Pruned.tell (pruned : Pruned from_ kept all) (follows : all.Follows run journal)
    (entered : journal.enter e = some next) (now : Int) :
    Pruned from_ ((eventStatements now e).foldl (Ledger.write run lost) kept)
      ((eventStatements now e).foldl (Ledger.write run lost) all) := by
  obtain ⟨known, learned, -⟩ := Option.map_eq_some_iff.mp entered
  cases e with
  | sessionStarted record =>
      obtain ⟨unheard, -⟩ := learn_started learned
      -- the player's row comes first, and leaves the sessions alone
      have seen : SessionStore.Allows journal
          (.upsertPlayer record.playerId (some record.playerName) now) := trivial
      have known := pruned.write lost follows seen
      exact known.write lost (follows.write trivial) unheard
  | sessionEnded record reason =>
      obtain ⟨active, -⟩ := learn_ended learned
      exact pruned.write lost follows active
  | watchersChanged record => exact pruned.write lost follows trivial
  | transcript => exact pruned

/-- What is enqueued for an event agrees with what is told by then. -/
theorem agrees_of_enter (entered : journal.enter e = some next) (now : Int) :
    ∀ statement ∈ eventStatements now e, Agrees next statement := by
  obtain ⟨known, learned, rfl⟩ := Option.map_eq_some_iff.mp entered
  intro statement listed
  cases e with
  | sessionStarted record =>
      rcases List.mem_pair.mp listed with rfl | rfl
      · trivial
      · obtain ⟨-, rfl⟩ := learn_started learned
        change Function.update journal record.num _ record.num ≠ _
        rw [Function.update_self]
        exact nofun
  | sessionEnded record reason =>
      obtain rfl := List.mem_singleton.mp listed
      obtain ⟨-, rfl⟩ := learn_ended learned
      intro other
      change Function.update journal record.num _ record.num ≠ _
      rw [Function.update_self]
      exact nofun
  | watchersChanged record =>
      obtain rfl := List.mem_singleton.mp listed
      trivial
  | transcript => cases listed

theorem stamped_eventStatements (now : Int) (e : SinkEvent) :
    ∀ statement ∈ eventStatements now e, Stamped now statement := by
  intro statement listed
  cases e with
  | sessionStarted record =>
      rcases List.mem_pair.mp listed with rfl | rfl
      · trivial
      · rfl
  | sessionEnded record reason =>
      obtain rfl := List.mem_singleton.mp listed
      rfl
  | watchersChanged record =>
      obtain rfl := List.mem_singleton.mp listed
      trivial
  | transcript => cases listed

theorem Follows.tell (follows : store.Follows run journal) (entered : journal.enter e = some next)
    (now : Int) : ((eventStatements now e).foldl (Ledger.write run lost) store).Follows run next := by
  have agrees := agrees_of_enter entered now
  replace follows := follows.learn entered
  generalize eventStatements now e = statements at agrees ⊢
  induction statements generalizing store with
  | nil => exact follows
  | cons statement statements ih =>
      obtain ⟨first, rest⟩ := List.forall_mem_cons.mp agrees
      exact ih (follows.write first) rest

theorem Steady.tell (steady : store.Steady run now) (e : SinkEvent) :
    ((eventStatements now e).foldl (Ledger.write run lost) store).Steady run now := by
  have stamped := stamped_eventStatements now e
  generalize eventStatements now e = statements at stamped ⊢
  induction statements generalizing store with
  | nil => exact steady
  | cons statement statements ih =>
      obtain ⟨first, rest⟩ := List.forall_mem_cons.mp stamped
      exact ih (steady.write first) rest

end SessionStore

/-! ## Every run -/

/-- What is written down of a message or a command comes behind what there was. -/
theorem StatsTables.write_spec (speaker : Speaker) (now : Int) (call : LogCall) :
    ∃ messages commands, ∀ tables : StatsTables,
      tables.write speaker now call = tables.add messages commands := by
  cases call with
  | received | transmitted | command | refused | rollCall => exact ⟨_, _, fun tables => rfl⟩

namespace Ledger

variable {run : Str} {speaker : Speaker} {from_ now : Int} {l kept all : Ledger}
  {journal last : Journal}

theorem Pruned.prune {cutoff : Int} (pruned : Pruned from_ kept all) (before : cutoff ≤ from_) :
    Pruned from_ (kept.enter run speaker (.prune cutoff)) all := by
  obtain ⟨⟨players, sequence, sessions⟩, messages, commands⟩ := pruned
  refine ⟨⟨players, sequence, sessions.thin fun row since => ?_⟩, messages.thin fun row since => ?_,
    commands.thin fun row since => ?_⟩
  · rw [Bool.not_eq_true']
    cases ended : row.endedAt with
    | none => rfl
    | some endedAt =>
        rw [SessionRow.since, ended, Option.all_some, decide_eq_true_eq] at since
        exact decide_eq_false (by omega)
  · have since := of_decide_eq_true since
    rw [Bool.not_eq_true', decide_eq_false_iff_not]
    omega
  · have since := of_decide_eq_true since
    rw [Bool.not_eq_true', decide_eq_false_iff_not]
    omega

/-- A store that is pruned on the way stays what is kept of the other. -/
theorem Pruned.record {entries : List LedgerEntry} (speaker : Speaker)
    (cuts : ∀ cutoff, LedgerEntry.prune cutoff ∈ entries → cutoff ≤ from_)
    (read : (entries.filterMap LedgerEntry.event).foldlM Journal.enter journal = some last)
    (pruned : Pruned from_ kept all) (follows : all.store.Follows run journal) :
    Pruned from_ (kept.record run speaker entries)
      (all.record run speaker (entries.filter fun entry => !entry.isPrune)) := by
  induction entries generalizing kept all journal with
  | nil => exact pruned
  | cons entry entries ih =>
      have later : ∀ cutoff, LedgerEntry.prune cutoff ∈ entries → cutoff ≤ from_ :=
        fun cutoff there => cuts cutoff (List.mem_cons_of_mem _ there)
      cases entry with
      | told e now lost =>
          rw [List.filterMap_cons_some (by rfl), List.foldlM_cons] at read
          obtain ⟨next, entered, read⟩ := Option.bind_eq_some_iff.mp read
          refine ih later read ⟨?_, pruned.messages, pruned.commands⟩ (follows.tell entered now)
          exact pruned.store.tell follows entered now
      | seen player name now =>
          rw [List.filterMap_cons_none (by rfl)] at read
          have allowed : SessionStore.Allows journal (.upsertPlayer player name now) := trivial
          have agrees : SessionStore.Agrees journal (.upsertPlayer player name now) := trivial
          have stores := pruned.store.change follows allowed
          exact ih later read ⟨stores, pruned.messages, pruned.commands⟩ (follows.change agrees)
      | traffic call now =>
          rw [List.filterMap_cons_none (by rfl)] at read
          obtain ⟨messages, commands, added⟩ := StatsTables.write_spec speaker now call
          refine ih later read ⟨pruned.store, ?_, ?_⟩ follows
          · simp only [enter, added]
            exact pruned.messages.append messages
          · simp only [enter, added]
            exact pruned.commands.append commands
      | prune cutoff =>
          rw [List.filterMap_cons_none (by rfl)] at read
          exact ih later read (pruned.prune (cuts cutoff List.mem_cons_self)) follows

/-- As long as the clock does not go back, sessions end after they have started. -/
theorem steady_record {entries : List LedgerEntry}
    (clock : (entries.filterMap LedgerEntry.time).Pairwise (· ≤ ·))
    (after : ∀ time ∈ entries.filterMap LedgerEntry.time, now ≤ time)
    (steady : l.store.Steady run now) : ∃ now, (l.record run speaker entries).store.Steady run now := by
  induction entries generalizing l now with
  | nil => exact ⟨now, steady⟩
  | cons entry entries ih =>
      cases entry with
      | told e time lost =>
          rw [List.filterMap_cons_some (by rfl)] at clock after
          obtain ⟨first, clock⟩ := List.pairwise_cons.mp clock
          exact ih clock first ((steady.later (after time List.mem_cons_self)).tell e)
      | seen player name time =>
          rw [List.filterMap_cons_some (by rfl)] at clock after
          obtain ⟨first, clock⟩ := List.pairwise_cons.mp clock
          have stamped : SessionStore.Stamped time (.upsertPlayer player name time) := trivial
          exact ih clock first ((steady.later (after time List.mem_cons_self)).change stamped)
      | traffic call time =>
          rw [List.filterMap_cons_some (by rfl)] at clock after
          obtain ⟨first, clock⟩ := List.pairwise_cons.mp clock
          exact ih clock first (steady.later (after time List.mem_cons_self))
      | prune cutoff =>
          rw [List.filterMap_cons_none (by rfl)] at clock after
          refine ih clock after ⟨fun row there => ?_, fun row there => ?_⟩
          · exact steady.closed row (List.mem_filter.mp there).1
          · exact steady.own row (List.mem_filter.mp there).1

end Ledger

/-! ## What is asked -/

section

variable {run : Str} {from_ now : Int} {kept all : Ledger}

/-- Two charts of one range are the same if they are for the times of the range. -/
theorem chart_congr {γ : Type} {asksTo : Option Int} {bucket : Str}
    {f g : Int × Int × Buckets.Width → Except StatsError γ}
    (same : ∀ to_ w, f (from_, to_, w) = g (from_, to_, w)) :
    (range now (some from_) asksTo bucket >>= f) = range now (some from_) asksTo bucket >>= g := by
  cases asked : range now (some from_) asksTo bucket with
  | error e => rfl
  | ok times =>
      obtain ⟨first, to_, w⟩ := times
      have is : first = from_ := by
        unfold range at asked
        split at asked
        · cases asked
        · dsimp only [Option.getD_some] at asked
          split_ifs at asked
          cases asked
          rfl
      rw [is]
      exact same to_ w

theorem between_congr {ρ : Type} {to_ : Int} {time : ρ → Int} {rows rows' : List ρ}
    (same : (rows.filter fun row => Within from_ to_ time row) =
      rows'.filter fun row => Within from_ to_ time row) :
    between from_ to_ time rows = between from_ to_ time rows' := by
  rw [between, between, same]

/-- Rows of a kind that are not older than the range. -/
theorem between_retained {ρ : Type} {to_ : Int} {time : ρ → Int} {rows rows' : List ρ}
    (retains : Retains (fun row => decide (from_ ≤ time row)) rows rows') (kind : ρ → Bool) :
    between from_ to_ time (rows.filter kind) = between from_ to_ time (rows'.filter kind) := by
  apply between_congr
  rw [List.filter_filter, List.filter_filter]
  apply retains.filter
  intro row _ asked
  rw [Bool.and_eq_true, decide_eq_true_eq] at asked
  exact decide_eq_true asked.1.1

/-- Sessions that have started since have not ended before. -/
theorem SessionStore.Steady.since {store : SessionStore} (steady : store.Steady run now)
    {row : StoredSession} (there : row ∈ store.sessions) (since : from_ ≤ row.startedAt) :
    row.since from_ = true := by
  cases ended : row.endedAt with
  | none => rw [SessionRow.since, ended, Option.all_none]
  | some endedAt =>
      have order := steady.closed row there endedAt ended
      rw [SessionRow.since, ended, Option.all_some, decide_eq_true_eq]
      exact since.trans order

namespace Ledger.Pruned

variable (pruned : Pruned from_ kept all)
include pruned

theorem statsMessages (now : Int) (to_ : Option Int) (bucket direction transport : Str) :
    statsMessages now kept.stats (some from_) to_ bucket direction transport =
      statsMessages now all.stats (some from_) to_ bucket direction transport := by
  rw [Admin.statsMessages, Admin.statsMessages]
  split
  · rfl
  · split
    · rfl
    · refine chart_congr fun to_ w => ?_
      dsimp only [stats]
      rw [between_retained pruned.messages]

theorem statsDelivery (now : Int) (to_ : Option Int) (bucket : Str) :
    statsDelivery now kept.stats (some from_) to_ bucket =
      statsDelivery now all.stats (some from_) to_ bucket := by
  rw [Admin.statsDelivery, Admin.statsDelivery]
  refine chart_congr fun to_ w => ?_
  dsimp only [stats]
  rw [between_retained pruned.messages]

theorem statsCommands (now : Int) (to_ : Option Int) (bucket : Str) (command : Option Str)
    (transport : Str) :
    statsCommands now kept.stats (some from_) to_ bucket command transport =
      statsCommands now all.stats (some from_) to_ bucket command transport := by
  rw [Admin.statsCommands, Admin.statsCommands]
  split
  · rfl
  · refine chart_congr fun to_ w => ?_
    dsimp only [stats]
    rw [between_retained pruned.commands]

theorem statsSessions (steady : all.store.Steady run now) (at_ : Int) (to_ : Option Int)
    (bucket : Str) :
    statsSessions at_ kept.stats (some from_) to_ bucket =
      statsSessions at_ all.stats (some from_) to_ bucket := by
  rw [Admin.statsSessions, Admin.statsSessions]
  refine chart_congr fun to_ w => ?_
  have starts : between from_ to_ SessionRow.startedAt kept.stats.sessions =
      between from_ to_ SessionRow.startedAt all.stats.sessions := by
    apply between_congr
    simp only [stats, SessionStore.tables, List.filter_map]
    refine congrArg _ (pruned.store.sessions.filter fun row there asked => ?_)
    exact steady.since there (of_decide_eq_true asked).1
  have ends : between from_ to_ id (kept.stats.sessions.filterMap SessionRow.endedAt) =
      between from_ to_ id (all.stats.sessions.filterMap SessionRow.endedAt) := by
    apply between_congr
    simp only [stats, SessionStore.tables, List.filterMap_map, List.filter_filterMap]
    refine pruned.store.sessions.filterMap fun row _ asked => ?_
    obtain ⟨endedAt, is⟩ := Option.isSome_iff_exists.mp asked
    obtain ⟨ended, within⟩ := Option.filter_eq_some_iff.mp is
    rw [SessionRow.since, show row.endedAt = some endedAt from ended, Option.all_some,
      decide_eq_true_eq]
    exact (of_decide_eq_true within).1
  dsimp only
  rw [starts, ends]

theorem sessionHistory (steady : all.store.Steady run now) {query : HistoryQuery}
    (asked : query.from_ = some from_) :
    sessionHistory kept.store query = sessionHistory all.store query := by
  have rows (cursor : Option (Int × Int)) :
      kept.store.sessions.filter (query.selects cursor) =
        all.store.sessions.filter (query.selects cursor) := by
    refine pruned.store.sessions.filter fun row there selected => ?_
    rw [HistoryQuery.selects, asked, Option.all_some, Bool.and_eq_true, Bool.and_eq_true,
      decide_eq_true_eq] at selected
    exact steady.since there selected.1.1
  simp only [Admin.sessionHistory, HistoryQuery.rows, rows, pruned.store.players]

end Ledger.Pruned

end

/-! ## Retention -/

namespace Ledger

variable {setup : Bot.Setup} {b : ZorkBot} {run : Str} {speaker : Speaker} {from_ : Int}
  {start : Ledger} {entries : List LedgerEntry}

/-- What was written down, without the retention runs. -/
def unpruned (entries : List LedgerEntry) : List LedgerEntry :=
  entries.filter fun entry => !entry.isPrune

theorem blank_follows (fresh : ∀ row ∈ start.store.sessions, row.botRunId ≠ run) :
    start.store.Follows run Journal.blank :=
  fun row there own => absurd own (fresh row there)

/-- As long as the clock does not go back, no session has ended before it has started. -/
theorem exists_steady (speaker : Speaker)
    (fresh : ∀ row ∈ start.store.sessions, row.botRunId ≠ run)
    (before : ∀ row ∈ start.store.sessions, ∀ endedAt, row.endedAt = some endedAt →
      row.startedAt ≤ endedAt)
    (clock : (entries.filterMap LedgerEntry.time).Pairwise (· ≤ ·)) :
    ∃ now, (start.record run speaker (unpruned entries)).store.Steady run now := by
  have times : ((unpruned entries).filterMap LedgerEntry.time).Pairwise (· ≤ ·) :=
    clock.sublist (List.filter_sublist.filterMap LedgerEntry.time)
  have steady (now : Int) : start.store.Steady run now :=
    ⟨before, fun row there own => absurd own (fresh row there)⟩
  cases shown : (unpruned entries).filterMap LedgerEntry.time with
  | nil => exact steady_record times (by simp [shown]) (steady 0)
  | cons first rest =>
      refine steady_record times (fun time there => ?_) (steady first)
      rw [shown] at times there
      rcases List.mem_cons.mp there with rfl | later
      · exact le_rfl
      · exact (List.pairwise_cons.mp times).1 time later

/-- Whatever the bot writes in a run and whenever the retention runs, whoever asks about times since
the latest cutoff is told what he would be told if it had never run: the same table of players and
the same open sessions, the same charts of messages, deliveries and commands, and, as long as the
clock does not go back, the same chart and the same history of sessions. -/
theorem retention_invisible (reached : (Bot.zorkbot setup).Reachable (fun _ _ => True) b)
    (told : entries.filterMap LedgerEntry.event = b.state.sink)
    (fresh : ∀ row ∈ start.store.sessions, row.botRunId ≠ run)
    (cuts : ∀ cutoff, LedgerEntry.prune cutoff ∈ entries → cutoff ≤ from_) :
    let kept := start.record run speaker entries
    let all := start.record run speaker (unpruned entries)
    (kept.store.players = all.store.players ∧
      (kept.store.sessions.filter fun row => row.endedAt.isNone) =
        all.store.sessions.filter fun row => row.endedAt.isNone) ∧
    (∀ now to_ bucket,
      (∀ direction transport,
        Admin.statsMessages now kept.stats (some from_) to_ bucket direction transport =
          Admin.statsMessages now all.stats (some from_) to_ bucket direction transport) ∧
      Admin.statsDelivery now kept.stats (some from_) to_ bucket =
        Admin.statsDelivery now all.stats (some from_) to_ bucket ∧
      ∀ command transport,
        Admin.statsCommands now kept.stats (some from_) to_ bucket command transport =
          Admin.statsCommands now all.stats (some from_) to_ bucket command transport) ∧
    ((∀ row ∈ start.store.sessions, ∀ endedAt, row.endedAt = some endedAt →
        row.startedAt ≤ endedAt) →
      (entries.filterMap LedgerEntry.time).Pairwise (· ≤ ·) →
        (∀ now to_ bucket, Admin.statsSessions now kept.stats (some from_) to_ bucket =
          Admin.statsSessions now all.stats (some from_) to_ bucket) ∧
        ∀ query : HistoryQuery, query.from_ = some from_ →
          Admin.sessionHistory kept.store query = Admin.sessionHistory all.store query) := by
  have read := ZorkBot.read_sink reached
  rw [← told] at read
  have same : Pruned from_ start start := ⟨⟨rfl, rfl, .refl _ _⟩, .refl _ _, .refl _ _⟩
  have pruned := same.record speaker cuts read (blank_follows fresh)
  refine ⟨⟨pruned.store.players, pruned.store.sessions.filter fun row _ open_ => ?_⟩,
    fun now to_ bucket => ⟨pruned.statsMessages now to_ bucket, pruned.statsDelivery now to_ bucket,
      pruned.statsCommands now to_ bucket⟩, fun before clock => ?_⟩
  · rw [SessionRow.since, Option.isNone_iff_eq_none.mp open_, Option.all_none]
  · obtain ⟨last, steady⟩ := exists_steady speaker fresh before clock
    exact ⟨pruned.statsSessions steady, fun query asked => pruned.sessionHistory steady asked⟩

/-- A store that has a session of an earlier run. -/
def earlier : Ledger where
  store :=
    { players := Table.empty.set ZorkBot.alice ⟨none, 10, 20⟩
      sessions := [⟨⟨"before".toList, 1, ZorkBot.alice, 10, some 20, some .playerEnd, 0⟩, 1⟩]
      sequence := 1
      unique := List.nodup_singleton _
      issued := by simp
      stored := by simp [fitsInteger] }
  messages := []
  commands := []

/-- Alice plays and Bob watches when the earlier session is deleted. -/
theorem retention_invisible_watched :
    ∃ b : ZorkBot, b.state.watchingSession ZorkBot.bob = some 1 ∧
      let entries := b.state.sink.map (fun e => .told e 100 fun _ => false) ++ [.prune 50]
      let kept := earlier.record "run".toList zorkbot entries
      let all := earlier.record "run".toList zorkbot (unpruned entries)
      (kept.store.sessions.map fun row => row.id) = [2] ∧
        (all.store.sessions.map fun row => row.id) = [1, 2] ∧
        Admin.statsSessions 100 kept.stats (some 50) none "minute".toList =
          Admin.statsSessions 100 all.stats (some 50) none "minute".toList := by
  let entries (b : ZorkBot) : List LedgerEntry :=
    b.state.sink.map (fun e => .told e 100 fun _ => false) ++ [.prune 50]
  obtain ⟨b, reached, watched, kept, all⟩ := System.reaches (Bot.zorkbot (ZorkBot.small 2))
    (fun _ _ => True)
    (fun b => b.state.watchingSession ZorkBot.bob = some 1 ∧
      ((earlier.record "run".toList zorkbot (entries b)).store.sessions.map fun row => row.id) =
        [2] ∧
      ((earlier.record "run".toList zorkbot (unpruned (entries b))).store.sessions.map fun row =>
        row.id) = [1, 2])
    (ZorkBot.aliceStarts 0 ++ ZorkBot.sends ZorkBot.bob "watch" "1" 1) (fun _ _ _ => trivial)
    (by decide +kernel)
  refine ⟨b, watched, kept, all, ?_⟩
  have told : (entries b).filterMap LedgerEntry.event = b.state.sink := by
    simp [entries, List.filterMap_append, List.filterMap_map, Function.comp_def,
      LedgerEntry.event]
  have times : (entries b).filterMap LedgerEntry.time = b.state.sink.map fun _ => 100 := by
    simp [entries, List.filterMap_append, List.filterMap_map, Function.comp_def,
      LedgerEntry.time]
  have cuts (cutoff : Int) (there : LedgerEntry.prune cutoff ∈ entries b) : cutoff ≤ 50 := by
    simp only [entries, List.mem_append, List.mem_map, reduceCtorEq, and_false, exists_false,
      List.mem_singleton, LedgerEntry.prune.injEq, false_or] at there
    exact there.le
  refine ((retention_invisible (reached.mono fun _ _ _ => trivial) told (by simp [earlier])
    cuts).2.2 (by simp [earlier]) ?_).1 100 none _
  rw [times]
  exact List.pairwise_map.mpr (List.pairwise_of_forall fun _ _ => le_rfl)

end Ledger

end Zorkbot.Admin
