/-
# The constraints of the event log

A session's insert comes right after the upsert of its player, but a full batch may end
between the two. As long as the first batch is then executed, and before the second,
the player's row is there. Only a batch that is rolled back for reasons of its own, or
overtaken, leaves the insert without it. Session numbers are used once, so no two rows
of a run have the same.
-/

import Zorkbot.Admin.EventLog

namespace Zorkbot.Admin

open Zorkbot.Bot (EndReason SessionRecord SessionState SinkEvent Str)
open Transition

namespace EventStatement

/-- The player a statement needs a row of. -/
def refers : EventStatement → Option Str
  | .insertSession _ player _ => some player
  | _ => none

/-- The player whose row is there after the statement. -/
def upserts : EventStatement → Option Str
  | .upsertPlayer player _ _ => some player
  | _ => none

/-- The session number a statement uses up. -/
def number : EventStatement → Option Int
  | .insertSession num _ _ => some num
  | _ => none

/-- The player upserted by the last statement. -/
def upsertsLast (before : Option Str) (statements : List EventStatement) : Option Str :=
  statements.foldl (fun _ statement => statement.upserts) before

/-- Each statement that needs a player's row comes right after the upsert of the player,
if the row is not there anyway. -/
def Supported (stored : Str → Prop) : Option Str → List EventStatement → Prop
  | _, [] => True
  | before, statement :: rest =>
      (∀ player, statement.refers = some player → before = some player ∨ stored player) ∧
        Supported stored statement.upserts rest

variable {stored stored' : Str → Prop} {before : Option Str} {first rest : List EventStatement}

theorem supported_append :
    Supported stored before (first ++ rest) ↔
      Supported stored before first ∧ Supported stored (upsertsLast before first) rest := by
  induction first generalizing before with
  | nil => simp [Supported, upsertsLast]
  | cons statement first ih =>
      simp only [List.cons_append, Supported, ih, and_assoc]
      rfl

theorem Supported.mono (supported : Supported stored before rest)
    (more : ∀ player, stored player → stored' player) : Supported stored' before rest := by
  induction rest generalizing before with
  | nil => trivial
  | cons statement rest ih =>
      exact ⟨fun player refers => (supported.1 player refers).imp_right (more player),
        ih supported.2⟩

/-- What comes first may come after anything if the row it needs is there. -/
theorem Supported.detach (supported : Supported stored before rest)
    (there : ∀ player, before = some player →
      rest.head?.bind refers = some player → stored player) (before' : Option Str) :
    Supported stored before' rest := by
  cases rest with
  | nil => trivial
  | cons statement rest =>
      refine ⟨fun player refers => .inr ?_, supported.2⟩
      exact (supported.1 player refers).elim (fun same => there player same refers) id

theorem Supported.after (supported : Supported stored none rest) (before : Option Str) :
    Supported stored before rest :=
  supported.detach (fun _ same => absurd same nofun) before

theorem supported_of_no_refers (plain : ∀ statement ∈ rest, statement.refers = none) :
    Supported stored before rest := by
  induction rest generalizing before with
  | nil => trivial
  | cons statement rest ih =>
      refine ⟨fun player refers => ?_, ih fun e listed => plain e (List.mem_cons_of_mem _ listed)⟩
      rw [plain statement List.mem_cons_self] at refers
      cases refers

end EventStatement

open EventStatement

namespace EventTables

variable {botRunId : Str} {tables : EventTables}

/-- The player has a row. -/
def Stores (tables : EventTables) (player : Str) : Prop := tables.players.get player ≠ none

/-- The numbers of this run's sessions. -/
def numbers (botRunId : Str) (tables : EventTables) : List Int :=
  (tables.sessions.filter fun row => decide (row.botRunId = botRunId)).map (·.sessionNum)

theorem mem_numbers {num : Int} :
    num ∈ tables.numbers botRunId ↔
      ∃ row ∈ tables.sessions, row.botRunId = botRunId ∧ row.sessionNum = num := by
  simp [numbers, and_assoc]

theorem numbers_updateSession {num : Int} {f : SessionRow → SessionRow}
    (run : ∀ row, (f row).botRunId = row.botRunId)
    (number : ∀ row, (f row).sessionNum = row.sessionNum) :
    (tables.updateSession botRunId num f).numbers botRunId = tables.numbers botRunId := by
  unfold numbers updateSession
  induction tables.sessions with
  | nil => rfl
  | cons row rest ih =>
      rw [List.map_cons, List.filter_cons, List.filter_cons]
      split <;> split <;> simp_all

theorem numbers_prune (cutoff : Int) :
    ((tables.prune cutoff).numbers botRunId).Sublist (tables.numbers botRunId) :=
  (List.filter_sublist.filter _).map _

/-- What a statement does that is executed. -/
structure Executes (botRunId : Str) (tables tables' : EventTables) (before : Option Str)
    (statements : List EventStatement) : Prop where
  keeps : ∀ player, tables.Stores player → tables'.Stores player
  stores : ∀ player, upsertsLast before statements = some player → tables'.Stores player
  numbers : tables'.numbers botRunId = tables.numbers botRunId ++ statements.filterMap number

/-- A statement is executed when the row it needs is there and its number is not. -/
theorem execute_ok (tables : EventTables) (botRunId : Str) (statement : EventStatement)
    (there : ∀ player, statement.refers = some player → tables.Stores player)
    (unused : ∀ num, statement.number = some num → num ∉ tables.numbers botRunId) :
    ∃ tables', tables.execute botRunId statement = .ok tables' ∧
      (∀ player, tables.Stores player → tables'.Stores player) ∧
      (∀ player, statement.upserts = some player → tables'.Stores player) ∧
      tables'.numbers botRunId = tables.numbers botRunId ++ statement.number.toList := by
  cases statement with
  | insertMessage | insertCommand =>
      refine ⟨tables, rfl, fun _ stores => stores, ?_, (List.append_nil _).symm⟩
      rintro player ⟨⟩
  | upsertPlayer player name seenAt =>
      refine ⟨_, rfl, fun p stores => ?_, fun p same => ?_, (List.append_nil _).symm⟩
      · rw [Stores, Table.get_set]
        split
        · simp
        · exact stores
      · cases same
        rw [Stores, Table.get_set_self]
        simp
  | insertSession num player startedAt =>
      have free : ¬ (tables.sessions.any fun row =>
          row.botRunId = botRunId ∧ row.sessionNum = num) = true := by
        intro used
        simp only [List.any_eq_true, decide_eq_true_eq] at used
        exact unused num rfl (mem_numbers.mpr used)
      have found : ¬ (tables.players.get player).isNone = true := by
        simpa [Stores] using there player rfl
      refine ⟨{ tables with
          sessions := tables.sessions ++ [⟨botRunId, num, player, startedAt, none, none, 0⟩] },
        by rw [execute, if_neg free, if_neg found], fun _ stores => stores, ?_, ?_⟩
      · rintro player ⟨⟩
      · simp [EventTables.numbers, EventStatement.number]
  | endSession num endedAt reason | raisePeakWatchers num watchers =>
      refine ⟨_, rfl, fun _ stores => stores, ?_, ?_⟩
      · rintro player ⟨⟩
      · refine Eq.trans ?_ (List.append_nil _).symm
        exact numbers_updateSession (fun _ => rfl) fun _ => rfl

/-- A batch is executed when what its statements need is there, or comes before it in the
batch, and their numbers are not there. -/
theorem executeMany_ok {before : Option Str} {statements : List EventStatement}
    (supported : Supported tables.Stores before statements)
    (stored : ∀ player, before = some player → tables.Stores player)
    (once : (tables.numbers botRunId ++ statements.filterMap number).Nodup) :
    ∃ tables', tables.executeMany botRunId statements = .ok tables' ∧
      Executes botRunId tables tables' before statements := by
  induction statements generalizing tables before with
  | nil => exact ⟨tables, rfl, fun _ stores => stores, stored, (List.append_nil _).symm⟩
  | cons statement rest ih =>
      obtain ⟨there, supported⟩ := supported
      obtain ⟨middle, executed, keeps, stores, numbers⟩ := execute_ok tables botRunId statement
        (fun player refers => (there player refers).elim (stored player) id) (by
          intro num used listed
          rw [List.filterMap_cons_some used] at once
          exact (List.nodup_append.mp once).2.2 num listed num List.mem_cons_self rfl)
      have pending : middle.numbers botRunId ++ rest.filterMap number =
          tables.numbers botRunId ++ (statement :: rest).filterMap number := by
        rw [numbers, List.append_assoc]
        cases used : statement.number <;> simp [used]
      obtain ⟨tables', rests, executes⟩ := ih (supported.mono keeps) stores (pending ▸ once)
      refine ⟨tables', ?_, fun player stored => executes.keeps player (keeps player stored),
        executes.stores, executes.numbers.trans pending⟩
      simp only [executeMany, List.foldlM_cons, executed]
      exact rests

end EventTables

namespace EventLog

variable {setup : LogSetup} {s t : EventLog}

/-- The statements that wait for a transaction: in a batch in flight, with the task, or in
the queue. -/
def pending (s : EventLog) : List EventStatement :=
  (s.inFlight.flatten ++ (s.sink.writer.held ++ s.sink.queue)).map (·.event)

/-- The statements that wait in the first `n` batches in flight, -/
def ahead (s : EventLog) (n : Nat) : List EventStatement :=
  (s.inFlight.take n).flatten.map (·.event)

/-- and those after them. -/
def behind (s : EventLog) (n : Nat) : List EventStatement :=
  ((s.inFlight.drop n).flatten ++ (s.sink.writer.held ++ s.sink.queue)).map (·.event)

/-- A session's insert comes first after `n` batches in flight, and its player has no row
and is upserted last in these. -/
def cut (s : EventLog) (n : Nat) : Bool :=
  ((s.behind n).head?.bind refers).any fun player =>
    decide (upsertsLast none (s.ahead n) = some player) && (s.tables.players.get player).isNone

/-- A batch is rolled back, or overtakes those before it, where a session's insert is cut
off from the upsert it needs. -/
def parts (s : EventLog) : LogAct → Bool
  | .transact n true => s.cut (n + 1)
  | .transact n false => s.cut n
  | _ => false

theorem pending_eq (s : EventLog) (n : Nat) : s.pending = s.ahead n ++ s.behind n := by
  have split : s.inFlight.flatten = (s.inFlight.take n).flatten ++ (s.inFlight.drop n).flatten := by
    rw [← List.flatten_append, List.take_append_drop]
  rw [pending, ahead, behind, split, List.append_assoc, List.map_append]

/-- What waits can be executed in turn, and its numbers are not used twice. -/
structure Sound (setup : LogSetup) (s : EventLog) : Prop where
  supported : Supported s.tables.Stores none s.pending
  /-- What is in the queue does not need what the task holds. -/
  queued : s.sink.writer.fills = true →
    Supported s.tables.Stores none (s.sink.queue.map (·.event))
  below : ∀ num ∈ s.tables.numbers setup.botRunId ++ s.pending.filterMap number,
    num < s.state.nextNum
  once : (s.tables.numbers setup.botRunId ++ s.pending.filterMap number).Nodup
  kept : s.violations = []

/-- Where nothing is cut, what waits after `n` batches needs nothing of them. -/
theorem Sound.behind (sound : s.Sound setup) {n : Nat} (whole : s.cut n = false) :
    Supported s.tables.Stores none (s.behind n) := by
  have supported := sound.supported
  rw [pending_eq s n, supported_append] at supported
  refine supported.2.detach (fun player last needs => ?_) none
  by_contra missing
  refine Bool.false_ne_true (whole.symm.trans ?_)
  rw [cut, needs, Option.any_some, last]
  simpa [EventTables.Stores] using missing

/-- What is left when the batch at a place is gone. -/
theorem pending_erase {n : Nat} {batch : List (Entry EventStatement)}
    (there : s.inFlight[n]? = some batch) :
    s.behind n = batch.map (·.event) ++ s.behind (n + 1) ∧
      { s with inFlight := s.inFlight.eraseIdx n }.pending = s.ahead n ++ s.behind (n + 1) := by
  obtain ⟨early, same⟩ := List.getElem?_eq_some_iff.mp there
  constructor
  · rw [EventLog.behind, List.drop_eq_getElem_cons early, same]
    simp [EventLog.behind]
  · simp [pending, ahead, EventLog.behind, List.eraseIdx_eq_take_drop_succ]

/-! ### A transaction -/

/-- Fewer statements wait. -/
theorem Sound.fewer (sound : s.Sound setup)
    (supported : Supported t.tables.Stores none t.pending)
    (queued : t.sink.writer.fills = true →
      Supported t.tables.Stores none (t.sink.queue.map (·.event)))
    (numbers : (t.tables.numbers setup.botRunId ++ t.pending.filterMap number).Subperm
      (s.tables.numbers setup.botRunId ++ s.pending.filterMap number))
    (state : t.state = s.state) (violations : t.violations = s.violations) : t.Sound setup where
  supported := supported
  queued := queued
  below num used := state ▸ sound.below num (numbers.subset used)
  once := by
    obtain ⟨_, same, fewer⟩ := numbers
    exact same.nodup_iff.mp (sound.once.sublist fewer)
  kept := violations.trans sound.kept

theorem Sound.rollBack (sound : s.Sound setup) {n : Nat} {batch : List (Entry EventStatement)}
    (there : s.inFlight[n]? = some batch) (whole : s.cut (n + 1) = false) :
    { s with inFlight := s.inFlight.eraseIdx n }.Sound setup := by
  obtain ⟨behind, pending⟩ := pending_erase there
  refine sound.fewer ?_ sound.queued ?_ rfl rfl
  · have supported := sound.supported
    rw [pending_eq s n, supported_append] at supported
    rw [pending, supported_append]
    exact ⟨supported.1, (sound.behind whole).after _⟩
  · rw [pending, pending_eq s n, behind]
    refine List.Sublist.subperm (List.Sublist.append_left (List.Sublist.filterMap _ ?_) _)
    exact List.Sublist.append_left (List.sublist_append_right _ _) _

theorem Sound.transact (sound : s.Sound setup) {n : Nat} {batch : List (Entry EventStatement)}
    (there : s.inFlight[n]? = some batch) (whole : s.cut n = false) :
    ({ s with inFlight := s.inFlight.eraseIdx n }.transact setup.botRunId batch).Sound setup := by
  obtain ⟨behind, pending⟩ := pending_erase there
  have after := sound.behind whole
  rw [behind, supported_append] at after
  have once := sound.once
  rw [pending_eq s n, behind, List.filterMap_append, List.filterMap_append] at once
  obtain ⟨tables, executed, executes⟩ := EventTables.executeMany_ok after.1 nofun
    (once.sublist ((List.sublist_append_left _ _).trans (List.sublist_append_right _ _)
      |>.append_left _))
  have taken : { s with inFlight := s.inFlight.eraseIdx n }.transact setup.botRunId batch =
      { s with inFlight := s.inFlight.eraseIdx n, tables := tables } := by
    rw [EventLog.transact, executed]
  rw [taken]
  refine sound.fewer ?_ (fun fills => (sound.queued fills).mono executes.keeps) ?_ rfl rfl
  · have supported := sound.supported
    rw [pending_eq s n, supported_append] at supported
    change Supported tables.Stores none
      (EventLog.pending { s with inFlight := s.inFlight.eraseIdx n })
    rw [pending, supported_append]
    refine ⟨supported.1.mono executes.keeps, ?_⟩
    exact (after.2.mono executes.keeps).detach
      (fun player last _ => executes.stores player last) _
  · change (tables.numbers setup.botRunId ++
      (EventLog.pending { s with inFlight := s.inFlight.eraseIdx n }).filterMap number).Subperm _
    rw [executes.numbers, pending, pending_eq s n, behind]
    simp only [List.filterMap_append, List.append_assoc]
    refine List.Perm.subperm (List.Perm.append_left _ ?_)
    simpa only [List.append_assoc] using List.perm_append_comm.append_right _

/-! ### Statements come in -/

/-- Once the queue is full, nothing more is accepted. -/
theorem enqueueAll_full {sizes : Sizes} {sink : SqliteEventSink EventStatement}
    (full : sink.full sizes = true) (statements : List EventStatement) :
    enqueueAll sizes statements sink = sink := by
  induction statements with
  | nil => rfl
  | cons statement rest ih =>
      rw [enqueueAll, List.foldl_cons, SqliteEventSink.enqueue, if_pos full]
      exact ih

/-- What is accepted of several statements comes first of them. -/
theorem enqueueAll_spec (sizes : Sizes) (statements : List EventStatement)
    (sink : SqliteEventSink EventStatement) :
    ∃ k, (enqueueAll sizes statements sink).queue.map (·.event) =
        sink.queue.map (·.event) ++ statements.take k ∧
      (enqueueAll sizes statements sink).writer = sink.writer := by
  induction statements generalizing sink with
  | nil => exact ⟨0, (List.append_nil _).symm, rfl⟩
  | cons statement rest ih =>
      cases full : sink.full sizes with
      | true => exact ⟨0, by rw [enqueueAll_full full]; simp, by rw [enqueueAll_full full]⟩
      | false =>
          obtain ⟨k, queue, writer⟩ := ih (sink.accept statement)
          have first : enqueueAll sizes (statement :: rest) sink =
              enqueueAll sizes rest (sink.accept statement) := by
            simp [enqueueAll, SqliteEventSink.enqueue, full]
          refine ⟨k + 1, ?_, first ▸ writer⟩
          rw [first, queue]
          simp [SqliteEventSink.accept]

/-- The new statements find what they need and use new numbers. -/
structure Joins (s : EventLog) (state : SessionState) (statements : List EventStatement) :
    Prop where
  supported : Supported s.tables.Stores none statements
  once : (statements.filterMap number).Nodup
  new : ∀ num ∈ statements.filterMap number, s.state.nextNum ≤ num ∧ num < state.nextNum
  later : s.state.nextNum ≤ state.nextNum

theorem Sound.join (sound : s.Sound setup) (state : SessionState)
    {statements : List EventStatement} (joins : s.Joins state statements) :
    { s with
      state := state
      sink := enqueueAll setup.sizes statements s.sink }.Sound setup := by
  obtain ⟨k, queue, writer⟩ := enqueueAll_spec setup.sizes statements s.sink
  have shorter : (statements.take k).filterMap number |>.Sublist (statements.filterMap number) :=
    (List.take_sublist _ _).filterMap _
  have accepted : Supported s.tables.Stores none (statements.take k) := by
    have supported := joins.supported
    rw [← List.take_append_drop k statements, supported_append] at supported
    exact supported.1
  have pending : EventLog.pending { s with
      state := state
      sink := enqueueAll setup.sizes statements s.sink } = s.pending ++ statements.take k := by
    simp only [EventLog.pending, List.map_append, queue, writer, List.append_assoc]
  constructor
  · rw [pending, supported_append]
    exact ⟨sound.supported, accepted.after _⟩
  · intro fills
    change (enqueueAll setup.sizes statements s.sink).writer.fills = true at fills
    change Supported _ _ ((enqueueAll setup.sizes statements s.sink).queue.map _)
    rw [writer] at fills
    rw [queue, supported_append]
    exact ⟨sound.queued fills, accepted.after _⟩
  · intro num used
    rw [pending, List.filterMap_append, ← List.append_assoc] at used
    rcases List.mem_append.mp used with old | new
    · exact lt_of_lt_of_le (sound.below num old) joins.later
    · exact (joins.new num (shorter.subset new)).2
  · rw [pending, List.filterMap_append, ← List.append_assoc]
    refine List.nodup_append.mpr ⟨sound.once, joins.once.sublist shorter, ?_⟩
    intro num old num' new same
    have early := sound.below num old
    have late := (joins.new num' (shorter.subset new)).1
    omega
  · exact sound.kept

theorem joins_of_plain {state : SessionState} {statements : List EventStatement}
    (plain : ∀ e ∈ statements, e.refers = none ∧ e.number = none)
    (same : state.nextNum = s.state.nextNum) : s.Joins state statements := by
  have numbers : statements.filterMap number = [] :=
    List.filterMap_eq_nil_iff.mpr fun e listed => (plain e listed).2
  refine ⟨supported_of_no_refers fun e listed => (plain e listed).1, ?_, ?_, same.ge⟩
  · rw [numbers]
    exact List.nodup_nil
  · rw [numbers]
    exact nofun

/-- What an operation tells the sink: that a session started that has the next number, or
nothing about a start. -/
theorem run_tells (maxWatchers : Int) (state : SessionState) (op : SessionOp) :
    ∃ told, (op.run maxWatchers state).sink = state.sink ++ told ∧
      ((op.run maxWatchers state).nextNum = state.nextNum ∧
          (∀ e ∈ told, ∀ record, e ≠ .sessionStarted record) ∨
        (op.run maxWatchers state).nextNum = state.nextNum + 1 ∧
          ∃ record, told = [.sessionStarted record] ∧ record.num = state.nextNum) := by
  cases op with
  | addSession player name => exact ⟨[_], rfl, .inr ⟨rfl, _, rfl, rfl⟩⟩
  | removeSession player reason =>
      rw [SessionOp.run, SessionState.removeSession]
      split
      · exact ⟨[], (List.append_nil _).symm, .inl ⟨rfl, nofun⟩⟩
      · exact ⟨[_], rfl, .inl ⟨rfl, by simp⟩⟩
  | addWatcher watcher num =>
      rw [SessionOp.run, SessionState.addWatcher]
      split
      · exact ⟨[], (List.append_nil _).symm, .inl ⟨rfl, nofun⟩⟩
      · split
        · exact ⟨[], (List.append_nil _).symm, .inl ⟨rfl, nofun⟩⟩
        · exact ⟨[_], rfl, .inl ⟨rfl, by simp⟩⟩
  | removeWatcher watcher =>
      rw [SessionOp.run, SessionState.removeWatcher]
      split
      · exact ⟨[], (List.append_nil _).symm, .inl ⟨rfl, nofun⟩⟩
      · split
        · exact ⟨[], (List.append_nil _).symm, .inl ⟨rfl, nofun⟩⟩
        · exact ⟨[_], rfl, .inl ⟨rfl, by simp⟩⟩

theorem joins_operate (maxWatchers : Int) (op : SessionOp) (now : Int) :
    s.Joins (op.run maxWatchers s.state)
      (((op.run maxWatchers s.state).sink.drop s.state.sink.length).flatMap
        (eventStatements now)) := by
  obtain ⟨told, sink, starts⟩ := run_tells maxWatchers s.state op
  rw [sink, List.drop_left]
  rcases starts with ⟨same, other⟩ | ⟨next, record, rfl, num⟩
  · refine joins_of_plain (fun e listed => ?_) same
    obtain ⟨event, there, told⟩ := List.mem_flatMap.mp listed
    cases event with
    | sessionStarted record => exact absurd rfl (other _ there record)
    | transcript => cases told
    | sessionEnded | watchersChanged =>
        rw [List.mem_singleton.mp told]
        exact ⟨rfl, rfl⟩
  · rw [List.flatMap_singleton]
    refine ⟨⟨nofun, fun player refers => .inl refers, trivial⟩, List.nodup_singleton _, ?_,
      by omega⟩
    intro used listed
    have same : record.num = used := by simpa [eventStatements, number] using listed
    omega

/-! ### The other steps -/

theorem Sound.sink (sound : s.Sound setup) {act : SinkAct EventStatement}
    (waits : s.waits act = false) {sink : SqliteEventSink EventStatement}
    (taken : s.sink.step setup.sizes act = some sink) :
    { s with
      sink := sink
      inFlight := s.inFlight ++ sink.passed.drop s.sink.passed.length }.Sound setup := by
  have arrival : act.arrival = none := by
    cases act with
    | enqueue => cases waits
    | _ => rfl
  obtain ⟨batches, passed, pending, fills⟩ :=
    SqliteEventSink.shifts (arrival ▸ SqliteEventSink.moves taken)
  rw [passed, List.drop_left]
  have queued : sink.writer.fills = true →
      Supported s.tables.Stores none (sink.queue.map (·.event)) := by
    intro filling
    rcases fills filling with empty | ⟨writer, queue⟩
    · rw [empty]
      trivial
    · rw [queue]
      exact sound.queued (writer ▸ filling)
  have all : EventLog.pending { s with sink := sink, inFlight := s.inFlight ++ batches } =
      s.inFlight.flatten.map (·.event) ++
        (batches.flatten ++ sink.writer.held ++ sink.queue).map (·.event) := by
    simp only [EventLog.pending, List.flatten_append, List.append_assoc, List.map_append]
  have before : s.pending =
      s.inFlight.flatten.map (·.event) ++ (s.sink.writer.held ++ s.sink.queue).map (·.event) := by
    simp only [EventLog.pending, List.map_append]
  rcases pending with same | ⟨rfl, held, queue⟩
  · rw [same, ← before] at all
    exact sound.fewer (all ▸ sound.supported) queued (all ▸ List.Subperm.refl _) rfl rfl
  · rw [held, queue] at all
    refine sound.fewer ?_ queued ?_ rfl rfl
    · have supported := sound.supported
      rw [before, supported_append] at supported
      rw [all, supported_append]
      refine ⟨supported.1, ?_⟩
      cases filling : s.sink.writer.fills with
      | true => exact (sound.queued filling).after _
      | false =>
          rw [Writer.held_of_not_fills filling] at supported
          exact supported.2
    · rw [all, before]
      refine List.Sublist.subperm (List.Sublist.append_left (List.Sublist.filterMap _ ?_) _)
      refine List.Sublist.append_left (List.Sublist.map _ ?_) _
      exact List.sublist_append_right _ _

theorem sound_init : (init setup).Sound setup := by
  have numbers : setup.tables.numbers setup.botRunId = [] := by
    simpa [EventTables.numbers, List.filter_eq_nil_iff] using setup.fresh
  have pending : (init setup).pending = [] := rfl
  constructor
  · trivial
  · exact nofun
  · change ∀ num ∈ setup.tables.numbers _ ++ _, _
    rw [numbers, pending]
    exact nofun
  · change (setup.tables.numbers _ ++ _).Nodup
    rw [numbers, pending]
    exact List.nodup_nil
  · rfl

theorem sound_step (sound : s.Sound setup) {a : LogAct} (whole : s.parts a = false)
    (taken : s.step setup a = some t) : t.Sound setup := by
  cases a with
  | operate op now =>
      cases taken
      exact sound.join _ (joins_operate setup.maxWatchers op now)
  | report report now =>
      cases taken
      refine sound.join s.state (joins_of_plain (fun e listed => ?_) rfl)
      rw [List.mem_singleton.mp listed]
      cases report <;> exact ⟨rfl, rfl⟩
  | sink act =>
      simp only [step] at taken
      split at taken
      · cases taken
      · next ready =>
          obtain ⟨sink, moved, rfl⟩ := Option.map_eq_some_iff.mp taken
          exact sound.sink (by simpa using ready) moved
  | transact n failing =>
      obtain ⟨batch, there, rfl⟩ := Option.map_eq_some_iff.mp taken
      cases failing with
      | true => exact sound.rollBack there whole
      | false => exact sound.transact there whole
  | prune cutoff =>
      cases taken
      exact sound.fewer sound.supported sound.queued
        (List.Sublist.subperm ((EventTables.numbers_prune cutoff).append_right _)) rfl rfl

theorem sound (reached : (eventLog setup).Reachable (fun s a => s.parts a = false) s) :
    s.Sound setup :=
  reached.invariant sound_init fun _ _ _ _ prior whole taken => sound_step prior whole taken

/-- When no batch is rolled back or overtaken where an insert is cut off from the upsert it
needs, no batch ever fails on a constraint. -/
theorem constraints_kept (reached : (eventLog setup).Reachable (fun s a => s.parts a = false) s) :
    s.violations = [] :=
  (sound reached).kept

/-- A run with empty tables. -/
def emptyTables : LogSetup where
  botRunId := "run".toList
  tables := ⟨.empty, []⟩
  fresh := nofun

/-- A session starts, and both of its statements are in one batch. -/
theorem constraints_kept_stored :
    ∃ s : EventLog, s.tables.sessions.map (·.sessionNum) = [1] ∧ s.violations = [] := by
  obtain ⟨s, reached, stored⟩ := System.reaches (eventLog emptyTables)
    (fun s a => s.parts a = false)
    (fun s => s.tables.sessions.map (·.sessionNum) = [1])
    [.sink .start, .operate (.addSession "a1".toList "alice".toList) 0, .sink (.run fun _ => 0),
      .sink .expire, .transact 0 false]
    (fun _ _ _ => trivial) (by decide +kernel)
  exact ⟨s, stored, constraints_kept (reached.mono fun _ _ both => both.1)⟩

/-- While a batch is being written, 99 other events come and a session starts: the next
batch ends with the upsert and is rolled back, and the one after it begins with the
insert. -/
def torn : List LogAct :=
  [LogAct.sink .start, .sink (.run fun _ => 0), .report .messageRx 0, .sink (.run fun _ => 0),
      .sink .expire] ++
    List.replicate 99 (.report .messageRx 0) ++
    [LogAct.operate (.addSession "a1".toList "alice".toList) 0, .transact 0 false,
      .sink (.wrote fun _ => 0), .transact 0 true, .sink (.wrote fun _ => 0), .sink .expire,
      .transact 0 false]

/-- The insert fails, for want of its player. -/
theorem insert_without_player :
    ∃ s : EventLog, (eventLog emptyTables).Reachable (fun _ _ => True) s ∧
      s.violations = [.foreignKey] := by
  obtain ⟨s, reached, failed⟩ := System.reaches (eventLog emptyTables) (fun _ _ => True)
    (fun s => s.violations = [.foreignKey]) torn (fun _ _ _ => trivial) (by decide +kernel)
  exact ⟨s, reached.mono fun _ _ _ => trivial, failed⟩

end EventLog

end Zorkbot.Admin
