/-
# The session history

A page of the history is one query to the table `sessions`, from below the cursor that the
page before ended with. SQLite takes 64 bits for an integer and gives a new row an id above
all ids there have been, so an id stays with its row.
-/

import Zorkbot.Admin.EventLog
import Zorkbot.Bot.Addressing
import Zorkbot.Data.Base64
import Zorkbot.Data.Numeral
import Mathlib.Algebra.Ring.Int.Defs
import Mathlib.Data.List.Sort

namespace Zorkbot.Admin

open Zorkbot.Bot (EndReason Str truthy)

/-! ## The table -/

/-- What SQLite takes for an integer; the driver raises for another. -/
def fitsInteger (n : Int) : Prop := -2 ^ 63 ≤ n ∧ n < 2 ^ 63

instance (n : Int) : Decidable (fitsInteger n) := inferInstanceAs (Decidable (_ ∧ _))

/-- A row with its `id`. -/
structure StoredSession extends SessionRow where
  id : Int

/-- The tables `players` and `sessions`. -/
structure SessionStore where
  players : Table Str PlayerRow
  sessions : List StoredSession
  /-- The largest id that was ever given to a row. -/
  sequence : Int
  unique : (sessions.map StoredSession.id).Nodup
  issued : ∀ row ∈ sessions, row.id ≤ sequence
  stored : ∀ row ∈ sessions, fitsInteger row.startedAt ∧ fitsInteger row.id

namespace SessionStore

/-- The tables without the ids. -/
def tables (store : SessionStore) : EventTables :=
  { players := store.players
    sessions := store.sessions.map StoredSession.toSessionRow }

/-- An update of rows that leaves their ids and when they began. -/
def updateRows (store : SessionStore) (f : StoredSession → StoredSession)
    (kept : ∀ row, (f row).id = row.id ∧ (f row).startedAt = row.startedAt) : SessionStore :=
  { store with
    sessions := store.sessions.map f
    unique := by
      have ids : StoredSession.id ∘ f = StoredSession.id := funext fun row => (kept row).1
      rw [List.map_map, ids]
      exact store.unique
    issued := by
      rw [List.forall_mem_map]
      exact fun row there => (kept row).1 ▸ store.issued row there
    stored := by
      rw [List.forall_mem_map]
      intro row there
      rw [(kept row).1, (kept row).2]
      exact store.stored row there }

/-- The rows of a session, which has one number in one run. -/
def updateSession (store : SessionStore) (botRunId : Str) (num : Int)
    (f : SessionRow → SessionRow) (kept : ∀ row, (f row).startedAt = row.startedAt) : SessionStore :=
  store.updateRows
    (fun row =>
      if row.botRunId = botRunId ∧ row.sessionNum = num then { f row.toSessionRow with id := row.id }
      else row)
    fun row => by
      dsimp only
      split
      · exact ⟨rfl, kept _⟩
      · exact ⟨rfl, rfl⟩

/-- A new row, unless it breaks a constraint or an integer does not fit. -/
def insertSession (store : SessionStore) (botRunId : Str) (num : Int) (player : Str)
    (startedAt : Int) : Option SessionStore :=
  if store.sessions.any fun row => row.botRunId = botRunId ∧ row.sessionNum = num then none
  else if (store.players.get player).isNone then none
  else if fits : fitsInteger startedAt ∧ fitsInteger (store.sequence + 1) then
    some
      { store with
        sessions := store.sessions ++
          [{ botRunId := botRunId
             sessionNum := num
             pubkeyPrefix := player
             startedAt := startedAt
             endedAt := none
             endReason := none
             peakWatchers := 0
             id := store.sequence + 1 }]
        sequence := store.sequence + 1
        unique := by
          rw [List.map_append, List.map_singleton]
          refine List.nodup_append.mpr ⟨store.unique, List.nodup_singleton _, ?_⟩
          intro a there b last same
          obtain ⟨row, listed, rfl⟩ := List.mem_map.mp there
          have before := store.issued row listed
          rw [same, List.mem_singleton.mp last] at before
          exact absurd before (Int.not_le.mpr (Int.lt_add_one_of_le (le_refl store.sequence)))
        issued := by
          intro row there
          rcases List.mem_append.mp there with there | last
          · have := store.issued row there
            omega
          · rw [List.mem_singleton.mp last]
        stored := by
          intro row there
          rcases List.mem_append.mp there with there | last
          · exact store.stored row there
          · rw [List.mem_singleton.mp last]
            exact fits }
  else none

/-- A statement of the sink; `none` where it raises. -/
def execute (botRunId : Str) (store : SessionStore) : EventStatement → Option SessionStore
  | .insertMessage | .insertCommand => some store
  | .upsertPlayer player name seenAt =>
      let row : PlayerRow :=
        match store.players.get player with
        | none => ⟨name, seenAt, seenAt⟩
        | some row => { row with name := name <|> row.name, lastSeenAt := seenAt }
      some { store with players := store.players.set player row }
  | .insertSession num player startedAt => store.insertSession botRunId num player startedAt
  | .endSession num endedAt reason =>
      some (store.updateSession botRunId num
        (fun row => { row with endedAt := some endedAt, endReason := some reason }) fun _ => rfl)
  | .raisePeakWatchers num watchers =>
      some (store.updateSession botRunId num
        (fun row => { row with peakWatchers := max row.peakWatchers watchers }) fun _ => rfl)

/-- What `prune_retention` does to these tables. -/
def prune (cutoff : Int) (store : SessionStore) : SessionStore :=
  { store with
    sessions := store.sessions.filter fun row => !row.endedAt.any fun endedAt =>
      decide (endedAt < cutoff)
    unique := store.unique.sublist (List.filter_sublist.map _)
    issued := fun row there => store.issued row (List.mem_filter.mp there).1
    stored := fun row there => store.stored row (List.mem_filter.mp there).1 }

/-- What happens to the tables between two requests. -/
inductive Change
  | statement (botRunId : Str) (statement : EventStatement)
  | prune (cutoff : Int)

/-- A statement that raises changes nothing. -/
def change (store : SessionStore) : Change → SessionStore
  | .statement botRunId statement => (store.execute botRunId statement).getD store
  | .prune cutoff => store.prune cutoff

theorem tables_updateSession (store : SessionStore) (botRunId : Str) (num : Int)
    (f : SessionRow → SessionRow) (kept : ∀ row, (f row).startedAt = row.startedAt) :
    (store.updateSession botRunId num f kept).tables = store.tables.updateSession botRunId num f := by
  refine congrArg (EventTables.mk store.players) ?_
  change (store.sessions.map _).map _ = (store.sessions.map _).map _
  rw [List.map_map, List.map_map, List.map_inj_left]
  intro row _
  simp only [Function.comp_apply]
  split <;> rfl

/-- Without the ids this is what the event log says of the statements. -/
theorem tables_execute {botRunId : Str} {store next : SessionStore} {statement : EventStatement}
    (done : store.execute botRunId statement = some next) :
    store.tables.execute botRunId statement = .ok next.tables := by
  cases statement with
  | insertMessage | insertCommand | upsertPlayer player name seenAt =>
      obtain rfl := Option.some.inj done
      rfl
  | endSession num endedAt reason | raisePeakWatchers num watchers =>
      obtain rfl := Option.some.inj done
      rw [tables_updateSession]
      rfl
  | insertSession num player startedAt =>
      rw [execute, insertSession] at done
      split_ifs at done with taken known fits
      obtain rfl := Option.some.inj done
      have vacant : (store.tables.sessions.any fun row =>
          row.botRunId = botRunId ∧ row.sessionNum = num) = false := by
        rw [tables, List.any_map]
        exact Bool.eq_false_iff.mpr taken
      have known : ¬(store.tables.players.get player).isNone = true := known
      rw [EventTables.execute, vacant, if_neg Bool.false_ne_true, if_neg known]
      simp only [tables, List.map_append, List.map_singleton]

end SessionStore

/-! ## The cursor -/

/-- `_encode_cursor`. -/
def encodeCursor (startedAt rowId : Int) : Str :=
  Base64.encode
    ((Numeral.toText startedAt ++ ':' :: Numeral.toText rowId).flatMap String.utf8EncodeChar)

/-- `_decode_cursor`; `none` is its `ValueError`. -/
def decodeCursor (cursor : Str) : Option (Int × Int) := do
  let raw ← Base64.decode cursor
  let text ← raw.toByteArray.utf8Decode?
  match text.toList.splitOn ':' with
  | [startedAt, rowId] => return (← Numeral.ofText startedAt, ← Numeral.ofText rowId)
  | _ => none

/-! ## The query -/

/-- The parameters of the request. -/
structure HistoryQuery where
  from_ : Option Int
  to_ : Option Int
  player : Option Str
  limit : Int
  cursor : Option Str
  /-- `Query(100, le=500)`. -/
  capped : limit ≤ 500

/-- An element of `sessions` in the response. -/
structure HistoryEntry where
  id : Int
  sessionNum : Int
  botRunId : Str
  pubkeyPrefix : Str
  name : Option Str
  startedAt : Int
  endedAt : Option Int
  durationSeconds : Option Int
  endReason : Option EndReason
  peakWatchers : Nat
  deriving DecidableEq

structure HistoryPage where
  sessions : List HistoryEntry
  nextCursor : Option Str
  deriving DecidableEq

inductive HistoryError
  /-- Status 400 with this description. -/
  | badRequest (description : Str)
  /-- SQLite's: `pubkey_prefix` is a column of both tables. -/
  | ambiguousColumn
  /-- The driver's: a parameter does not fit. -/
  | overflow
  /-- `rows[-1]` of no rows. -/
  | index
  deriving DecidableEq

/-- `_PUBKEY_RE.match`: the `$` lets a newline follow. -/
def isPubkey (player : Str) : Bool :=
  let digits := player.takeWhile fun c => c.isDigit || ('a' ≤ c && c ≤ 'f')
  digits.length = 12 && (player.drop 12 = [] || player.drop 12 = ['\n'])

/-- The clauses on a row. -/
def HistoryQuery.selects (query : HistoryQuery) (cursor : Option (Int × Int))
    (row : StoredSession) : Bool :=
  (query.from_.all fun bound => row.startedAt ≥ bound) &&
    (query.to_.all fun bound => row.startedAt ≤ bound) &&
    cursor.all fun (curStarted, curId) =>
      row.startedAt < curStarted || (row.startedAt = curStarted && row.id < curId)

/-- `ORDER BY started_at DESC, id DESC`. -/
def Precedes (a b : StoredSession) : Prop :=
  b.startedAt < a.startedAt ∨ b.startedAt = a.startedAt ∧ b.id ≤ a.id

instance : DecidableRel Precedes := fun _ _ => inferInstanceAs (Decidable (_ ∨ _ ∧ _))

/-- `LIMIT`, which a negative number lifts. -/
def limited {α : Type} (limit : Int) (rows : List α) : List α :=
  if limit < 0 then rows else rows.take limit.toNat

/-- A row of the response. A player has one row or none. -/
def StoredSession.entry (players : Table Str PlayerRow) (row : StoredSession) : HistoryEntry :=
  { id := row.id
    sessionNum := row.sessionNum
    botRunId := row.botRunId
    pubkeyPrefix := row.pubkeyPrefix
    name := (players.get row.pubkeyPrefix).bind PlayerRow.name
    startedAt := row.startedAt
    endedAt := row.endedAt
    durationSeconds := row.endedAt.map fun endedAt => endedAt - row.startedAt
    endReason := row.endReason
    peakWatchers := row.peakWatchers }

/-- What is bound to the query, in order. -/
def HistoryQuery.params (query : HistoryQuery) (cursor : Option (Int × Int)) : List Int :=
  query.from_.toList ++ query.to_.toList ++
    (cursor.toList.flatMap fun (curStarted, curId) => [curStarted, curStarted, curId]) ++
    [query.limit]

/-- The rows of the `SELECT`, when its parameters can be bound. -/
def HistoryQuery.rows (query : HistoryQuery) (cursor : Option (Int × Int)) (store : SessionStore) :
    Except HistoryError (List StoredSession) :=
  if query.player.isSome then .error .ambiguousColumn
  else if ∀ n ∈ query.params cursor, fitsInteger n then
    .ok (limited query.limit ((store.sessions.filter (query.selects cursor)).insertionSort Precedes))
  else .error .overflow

/-- The cursor's part of the request. An empty one is none. -/
def readCursor (cursor : Option Str) : Except HistoryError (Option (Int × Int)) :=
  match truthy cursor with
  | none => .ok none
  | some cursor =>
    match decodeCursor cursor with
    | some cursor => .ok (some cursor)
    | none => .error (.badRequest "invalid cursor".toList)

/-- The response. -/
def HistoryQuery.respond (query : HistoryQuery) (players : Table Str PlayerRow)
    (rows : List StoredSession) : Except HistoryError HistoryPage :=
  let result := rows.map (StoredSession.entry players)
  if (rows.length : Int) = query.limit then
    match rows.getLast? with
    | some last => .ok ⟨result, some (encodeCursor last.startedAt last.id)⟩
    | none => .error .index
  else .ok ⟨result, none⟩

/-- `session_history`. -/
def sessionHistory (store : SessionStore) (query : HistoryQuery) :
    Except HistoryError HistoryPage :=
  if query.player.any fun player => !isPubkey player then
    .error (.badRequest "invalid player pubkey_prefix".toList)
  else do
    let cursor ← readCursor query.cursor
    let rows ← query.rows cursor store
    query.respond store.players rows

end Zorkbot.Admin
