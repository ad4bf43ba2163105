/-
# The chronicle

What the sink was told, written into the tables without loss. Each session that ever started has
one row, and the rows that are open are those of the sessions that are active.
-/

import Zorkbot.Admin.EventLog
import Zorkbot.Bot.Shutdown

namespace Zorkbot.Admin

open Zorkbot.Bot (Journal Known SessionRecord SessionState SinkEvent Str ZorkBot)
open Transition

namespace EventTables

variable {run : Str} {tables : EventTables} {n num : Int}

/-- The rows of a number in one run. -/
def rowsOf (run : Str) (n : Int) (tables : EventTables) : List SessionRow :=
  tables.sessions.filter fun row => row.botRunId = run ∧ row.sessionNum = n

theorem rowsOf_updateSession {f : SessionRow → SessionRow}
    (run_kept : ∀ row, (f row).botRunId = row.botRunId)
    (num_kept : ∀ row, (f row).sessionNum = row.sessionNum) :
    (tables.updateSession run num f).rowsOf run n =
      if n = num then (tables.rowsOf run n).map f else tables.rowsOf run n := by
  simp only [rowsOf, updateSession]
  induction tables.sessions with
  | nil => simp
  | cons row rest ih =>
      rw [List.map_cons, List.filter_cons, List.filter_cons, ih]
      by_cases own : row.botRunId = run
      · by_cases here : row.sessionNum = num
        · by_cases same : n = num
          · simp [own, here, same, run_kept, num_kept]
          · simp [own, here, same, Ne.symm same, num_kept]
        · by_cases same : n = num
          · simp [here, same]
          · simp [here, same]
      · simp [own]

theorem others_updateSession {f : SessionRow → SessionRow}
    (run_kept : ∀ row, (f row).botRunId = row.botRunId) :
    ((tables.updateSession run num f).sessions.filter fun row => row.botRunId ≠ run) =
      tables.sessions.filter fun row => row.botRunId ≠ run := by
  simp only [updateSession]
  induction tables.sessions with
  | nil => rfl
  | cons row rest ih =>
      rw [List.map_cons, List.filter_cons, List.filter_cons, ih]
      by_cases own : row.botRunId = run
      · by_cases here : row.sessionNum = num <;> simp [own, here, run_kept]
      · simp [own]

/-- A session whose number is new to the run is inserted with its player. -/
theorem execute_started (player : Str) (name : Option Str) (now : Int)
    (fresh : tables.rowsOf run num = []) :
    ∃ players, tables.executeMany run
        [.upsertPlayer player name now, .insertSession num player now] =
      .ok ⟨players, tables.sessions ++ [⟨run, num, player, now, none, none, 0⟩]⟩ := by
  obtain ⟨row, upserted⟩ : ∃ row, tables.execute run (.upsertPlayer player name now) =
      .ok { tables with players := tables.players.set player row } := ⟨_, rfl⟩
  have unused : ¬ (tables.sessions.any fun row => row.botRunId = run ∧ row.sessionNum = num) := by
    simpa [rowsOf, List.filter_eq_nil_iff] using fresh
  have known : ¬ ((tables.players.set player row).get player).isNone := by
    rw [Table.get_set_self]
    exact Bool.false_ne_true
  refine ⟨tables.players.set player row, ?_⟩
  rw [executeMany, List.foldlM_cons, upserted]
  change (execute run _ _ >>= pure) = _
  rw [bind_pure, execute, if_neg unused, if_neg known]

end EventTables

/-- What the sink enqueues for what it is told, with the times. -/
def chronicle (told : List (SinkEvent × Int)) : List EventStatement :=
  told.flatMap fun entry => eventStatements entry.2 entry.1

/-- The rows of a number, by what is known of it. -/
def Shows : Known → List SessionRow → Prop
  | .unheard, rows => rows = []
  | .active record, rows => ∃ row, rows = [row] ∧ row.pubkeyPrefix = record.playerId ∧
      row.endedAt = none ∧ record.watchers.card ≤ row.peakWatchers
  | .ended, rows => ∃ row, rows = [row] ∧ row.endedAt ≠ none

/-- The rows of a run are what a journal says, and no other rows have changed. -/
structure Mirrors (run : Str) (before tables : EventTables) (journal : Journal) : Prop where
  own : ∀ n, Shows (journal n) (tables.rowsOf run n)
  others : (tables.sessions.filter fun row => row.botRunId ≠ run) =
    before.sessions.filter fun row => row.botRunId ≠ run

namespace Mirrors

variable {run : Str} {before tables tables' : EventTables} {journal next : Journal} {e : SinkEvent}

/-- An event changes the rows of its own number only. -/
theorem update (mirrors : Mirrors run before tables journal) {known : Known}
    (own : Shows known (tables'.rowsOf run e.num))
    (apart : ∀ n ≠ e.num, tables'.rowsOf run n = tables.rowsOf run n)
    (others : (tables'.sessions.filter fun row => row.botRunId ≠ run) =
      tables.sessions.filter fun row => row.botRunId ≠ run) :
    Mirrors run before tables' (Function.update journal e.num known) := by
  constructor
  · intro n
    by_cases here : n = e.num
    · rw [here, Function.update_self]
      exact own
    · rw [Function.update_of_ne here, apart n here]
      exact mirrors.own n
  · exact others.trans mirrors.others

theorem updateSession (mirrors : Mirrors run before tables journal) (e : SinkEvent)
    {known : Known} (f : SessionRow → SessionRow) (run_kept : ∀ row, (f row).botRunId = row.botRunId)
    (num_kept : ∀ row, (f row).sessionNum = row.sessionNum)
    (own : Shows known ((tables.rowsOf run e.num).map f)) :
    Mirrors run before (tables.updateSession run e.num f)
      (Function.update journal e.num known) := by
  apply mirrors.update
  · rw [EventTables.rowsOf_updateSession run_kept num_kept, if_pos rfl]
    exact own
  · intro n other
    rw [EventTables.rowsOf_updateSession run_kept num_kept, if_neg other]
  · exact EventTables.others_updateSession run_kept

theorem enter (mirrors : Mirrors run before tables journal) (entered : journal.enter e = some next)
    (now : Int) : ∃ tables', tables.executeMany run (eventStatements now e) = .ok tables' ∧
      Mirrors run before tables' next := by
  obtain ⟨known, learned, rfl⟩ := Option.map_eq_some_iff.mp entered
  have shown := mirrors.own e.num
  generalize was : journal e.num = old at learned shown
  cases e with
  | sessionStarted record =>
      cases old with
      | active | ended => cases learned
      | unheard =>
          simp only [Known.learn, Option.ite_none_right_eq_some, Option.some.injEq] at learned
          obtain ⟨unwatched, rfl⟩ := learned
          obtain ⟨players, executed⟩ :=
            EventTables.execute_started record.playerId (some record.playerName) now shown
          refine ⟨_, executed, mirrors.update ?_ ?_ ?_⟩
          · refine ⟨⟨run, record.num, record.playerId, now, none, none, 0⟩, ?_, rfl, rfl, ?_⟩
            · change (tables.sessions ++ [_]).filter _ = _
              rw [List.filter_append, show tables.sessions.filter _ = [] from shown]
              simp [SinkEvent.num]
            · rw [unwatched]
              exact Nat.le_refl 0
          · intro n other
            change (tables.sessions ++ [_]).filter _ = _
            rw [List.filter_append, EventTables.rowsOf]
            simpa using Ne.symm other
          · change (tables.sessions ++ [_]).filter _ = _
            rw [List.filter_append]
            simp
  | sessionEnded record reason =>
      cases old with
      | unheard | ended => cases learned
      | active old =>
          simp only [Known.learn, Option.ite_none_right_eq_some, Option.some.injEq] at learned
          obtain ⟨rfl, rfl⟩ := learned
          obtain ⟨row, rows, -, -, -⟩ := shown
          refine ⟨_, rfl, mirrors.updateSession (.sessionEnded record reason) _ (fun _ => rfl)
            (fun _ => rfl) ?_⟩
          exact ⟨_, congrArg (List.map _) rows, nofun⟩
  | watchersChanged record =>
      cases old with
      | unheard | ended => cases learned
      | active old =>
          simp only [Known.learn, Option.ite_none_right_eq_some, Option.some.injEq] at learned
          obtain ⟨same, rfl⟩ := learned
          obtain ⟨row, rows, player, open_, peak⟩ := shown
          refine ⟨_, rfl, mirrors.updateSession (.watchersChanged record) _ (fun _ => rfl)
            (fun _ => rfl) ?_⟩
          refine ⟨_, congrArg (List.map _) rows, ?_, open_, Nat.le_max_right _ _⟩
          exact player.trans (congrArg SessionRecord.playerId same).symm
  | transcript num name command output =>
      refine ⟨tables, rfl, mirrors.update ?_ (fun _ _ => rfl) rfl⟩
      have same : known = old := by
        cases old with
        | unheard => cases learned
        | active | ended => exact (Option.some.inj learned).symm
      rw [same]
      exact shown

/-- Whatever can be read as a journal is written without an error. -/
theorem write (told : List (SinkEvent × Int)) (mirrors : Mirrors run before tables journal)
    (read : (told.map (·.1)).foldlM Journal.enter journal = some next) :
    ∃ tables', tables.executeMany run (chronicle told) = .ok tables' ∧
      Mirrors run before tables' next := by
  induction told generalizing tables journal with
  | nil =>
      rw [← Option.some.inj read]
      exact ⟨tables, rfl, mirrors⟩
  | cons entry rest ih =>
      obtain ⟨e, now⟩ := entry
      rw [List.map_cons, List.foldlM_cons] at read
      obtain ⟨middle, entered, read⟩ := Option.bind_eq_some_iff.mp read
      obtain ⟨written, executed, mirrors⟩ := mirrors.enter entered now
      obtain ⟨tables', executed', mirrors⟩ := ih mirrors read
      refine ⟨tables', ?_, mirrors⟩
      rw [EventTables.executeMany] at executed executed' ⊢
      rw [chronicle, List.flatMap_cons, List.foldlM_append, executed]
      exact executed'

end Mirrors

/-! ## The history of a run -/

/-- The tables hold the history of a registry: a row for each number that was given out, an open
one for each session, and what else was there before. -/
structure Recorded (run : Str) (before : EventTables) (s : SessionState) (tables : EventTables) :
    Prop where
  rows : ∀ n, (tables.rowsOf run n).length = if 1 ≤ n ∧ n < s.nextNum then 1 else 0
  playing : ∀ p n, (∃ row ∈ tables.rowsOf run n, row.pubkeyPrefix = p ∧ row.endedAt = none) ↔
    ∃ r, s.getSession p = some r ∧ (s.record r).num = n
  peak : ∀ p r, s.getSession p = some r → ∀ row ∈ tables.rowsOf run (s.record r).num,
    (s.record r).watchers.card ≤ row.peakWatchers
  others : (tables.sessions.filter fun row => row.botRunId ≠ run) =
    before.sessions.filter fun row => row.botRunId ≠ run

section

variable {run : Str} {before tables : EventTables} {s : SessionState} {maxWatchers : Int}

theorem mirrors_blank (fresh : ∀ row ∈ before.sessions, row.botRunId ≠ run) :
    Mirrors run before before Journal.blank := by
  refine ⟨fun n => ?_, rfl⟩
  change before.sessions.filter _ = []
  rw [List.filter_eq_nil_iff]
  intro row listed
  simp [fresh row listed]

theorem Mirrors.recorded (mirrors : Mirrors run before tables s.known)
    (consistent : s.Consistent maxWatchers) (numbered : s.Numbered) :
    Recorded run before s tables := by
  have tells := consistent.tells numbered
  constructor
  · intro n
    have shown := mirrors.own n
    have unheard := tells.unheard n
    cases known : s.known n with
    | unheard =>
        rw [known] at shown
        have out := unheard.mp known
        rw [shown, if_neg (by omega)]
        rfl
    | active | ended =>
        rw [known] at shown
        obtain ⟨row, rows, -⟩ := shown
        have given : 1 ≤ n ∧ n < s.nextNum := by
          by_contra out
          have unheard := unheard.mpr (by omega)
          rw [known] at unheard
          cases unheard
        rw [rows, if_pos given]
        rfl
  · intro p n
    have shown := mirrors.own n
    constructor
    · rintro ⟨row, listed, player, open_⟩
      cases known : s.known n with
      | unheard =>
          rw [known] at shown
          rw [shown] at listed
          cases listed
      | ended =>
          rw [known] at shown
          obtain ⟨other, rows, closed⟩ := shown
          rw [rows, List.mem_singleton] at listed
          exact absurd (listed ▸ open_) closed
      | active record =>
          rw [known] at shown
          obtain ⟨other, rows, own, -⟩ := shown
          rw [rows, List.mem_singleton] at listed
          obtain ⟨q, r, plays, rfl, num⟩ := consistent.known_active.mp known
          have owner := consistent.owner plays
          refine ⟨r, ?_, num⟩
          rw [← player, listed, own, owner]
          exact plays
    · rintro ⟨r, plays, rfl⟩
      rw [consistent.known_plays plays] at shown
      obtain ⟨row, rows, own, open_, -⟩ := shown
      refine ⟨row, ?_, own.trans (consistent.owner plays), open_⟩
      rw [rows]
      exact List.mem_singleton_self row
  · intro p r plays row listed
    have shown := mirrors.own (s.record r).num
    rw [consistent.known_plays plays] at shown
    obtain ⟨other, rows, -, -, peak⟩ := shown
    rw [rows, List.mem_singleton] at listed
    exact listed ▸ peak
  · exact mirrors.others

end

section

variable {setup : Bot.Setup} {b : ZorkBot} {run : Str} {before : EventTables}

/-- Written without loss, what the sink was told in a run is a history of all its sessions: the rows
that are open are those of the sessions that are active, and after `stop` none is open. -/
theorem history_recorded (reached : (Bot.zorkbot setup).Reachable (fun _ _ => True) b)
    (fresh : ∀ row ∈ before.sessions, row.botRunId ≠ run) :
    (∀ told : List (SinkEvent × Int), told.map (·.1) = b.state.sink →
      ∃ tables, before.executeMany run (chronicle told) = .ok tables ∧
        Recorded run before b.state tables) ∧
    ∀ told : List (SinkEvent × Int), told.map (·.1) = b.stop.state.sink →
      ∃ tables, before.executeMany run (chronicle told) = .ok tables ∧
        Recorded run before b.stop.state tables ∧
          ∀ row ∈ tables.sessions, row.botRunId = run → row.endedAt ≠ none := by
  have blank := mirrors_blank fresh
  constructor
  · rintro told all
    have sound := ZorkBot.sound reached
    have read := ZorkBot.read_sink reached
    rw [← all] at read
    obtain ⟨tables, executed, mirrors⟩ := blank.write told read
    exact ⟨tables, executed, mirrors.recorded sound.registry (ZorkBot.numbered reached)⟩
  · rintro told all
    obtain ⟨closed, consistent, numbered, read⟩ := ZorkBot.stop_registry reached
    rw [← all] at read
    obtain ⟨tables, executed, mirrors⟩ := blank.write told read
    have recorded := mirrors.recorded consistent numbered
    refine ⟨tables, executed, recorded, ?_⟩
    rintro row listed rfl open_
    have found : row ∈ tables.rowsOf row.botRunId row.sessionNum := by
      simp [EventTables.rowsOf, listed]
    obtain ⟨r, plays, -⟩ := (recorded.playing row.pubkeyPrefix row.sessionNum).mp
      ⟨row, found, rfl, open_⟩
    have vacant := (SessionState.activeState_eq_none (closed.idle row.pubkeyPrefix)).1
    rw [SessionState.getSession, vacant] at plays
    cases plays

/-- Alice plays and Bob watches. The tables were empty, and all was told at once. -/
theorem history_recorded_watched :
    ∃ b : ZorkBot, b.state.watchingSession ZorkBot.bob = some 1 ∧
      ∃ tables, (⟨.empty, []⟩ : EventTables).executeMany "run".toList
          (chronicle (b.state.sink.map fun e => (e, 0))) = .ok tables ∧
        Recorded "run".toList ⟨.empty, []⟩ b.state tables := by
  obtain ⟨b, reached, watched⟩ := System.reaches (Bot.zorkbot (ZorkBot.small 2)) (fun _ _ => True)
    (fun b => b.state.watchingSession ZorkBot.bob = some 1)
    (ZorkBot.aliceStarts 0 ++ ZorkBot.sends ZorkBot.bob "watch" "1" 1) (fun _ _ _ => trivial)
    (by decide)
  refine ⟨b, watched, (history_recorded (reached.mono fun _ _ _ => trivial) ?_).1 _ ?_⟩
  · exact fun row listed => absurd listed List.not_mem_nil
  · rw [List.map_map]
    exact List.map_id _

end

end Zorkbot.Admin
