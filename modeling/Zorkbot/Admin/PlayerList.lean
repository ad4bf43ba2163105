/-
# The list of players

The statistics of a player are counted by the query, which sorts the players by a column and cuts
a page out by its offset. Rows with the same value of the column come in any order. A player who
is heard moves to now in the column `last_seen_at`, with no other column changed but the name.
-/

import Mathlib.Algebra.Group.Nat.Defs
import Zorkbot.Admin.SessionHistory

namespace Zorkbot.Admin

open Zorkbot.Bot (Str)

/-! ## The tables -/

/-- A row of `players`. -/
structure StoredPlayer extends PlayerRow where
  pubkeyPrefix : Str
  bannedAt : Option Int

/-- What is counted of a row of `messages`. -/
structure DirectedMessage where
  direction : Str
  pubkeyPrefix : Option Str
  acked : Option Int

/-- The tables behind the list. -/
structure PlayersStore where
  players : List StoredPlayer
  messages : List DirectedMessage
  sessions : List SessionRow
  unique : (players.map StoredPlayer.pubkeyPrefix).Nodup
  /-- A database has no more bytes than this. -/
  bounded : players.length ≤ 2 ^ 48

namespace PlayersStore

/-- The players there are. -/
def keys (store : PlayersStore) : List Str := store.players.map StoredPlayer.pubkeyPrefix

/-- What `player_seen` enqueues, of a player who is there. -/
def updatePlayer (store : PlayersStore) (player : Str) (name : Option Str) (seenAt : Int) :
    PlayersStore :=
  { store with
    players := store.players.map fun row =>
      if row.pubkeyPrefix = player then { row with name := name <|> row.name, lastSeenAt := seenAt }
      else row
    unique := by
      refine Eq.mpr (congrArg List.Nodup ?_) store.unique
      rw [List.map_map]
      refine List.map_congr_left fun row _ => ?_
      rw [Function.comp_apply]
      split <;> rfl
    bounded := by
      rw [List.length_map]
      exact store.bounded }

/-- `player_seen`, when the statement is executed; `none` where the database is full. -/
def playerSeen (store : PlayersStore) (player : Str) (name : Option Str) (seenAt : Int) :
    Option PlayersStore :=
  if there : player ∈ store.keys then some (store.updatePlayer player name seenAt)
  else if room : store.players.length < 2 ^ 48 then
    some
      { store with
        players := store.players ++ [⟨⟨name, seenAt, seenAt⟩, player, none⟩]
        unique := by
          rw [List.map_append, List.map_singleton]
          exact store.unique.append (List.nodup_singleton player)
            (List.disjoint_singleton.mpr there)
        bounded := by
          rw [List.length_append]
          exact room }
  else none

end PlayersStore

/-! ## The query -/

/-- The columns of `_DETAIL_SQL`. -/
structure PlayerDetail where
  pubkeyPrefix : Str
  name : Option Str
  firstSeenAt : Int
  lastSeenAt : Int
  bannedAt : Option Int
  messagesReceivedFrom : Nat
  messagesSentTo : Nat
  dmsDelivered : Nat
  dmsUndelivered : Nat
  sessionsStarted : Nat
  totalPlaySeconds : Int
  deriving DecidableEq

/-- The row of a player, where `now` is what the engine's clock shows. -/
def PlayersStore.detail (store : PlayersStore) (now : Int) (p : StoredPlayer) : PlayerDetail :=
  let sent (direction : String) (m : DirectedMessage) : Bool :=
    m.direction = direction.toList && m.pubkeyPrefix = some p.pubkeyPrefix
  let sessions := store.sessions.filter fun row => row.pubkeyPrefix = p.pubkeyPrefix
  { pubkeyPrefix := p.pubkeyPrefix
    name := p.name
    firstSeenAt := p.firstSeenAt
    lastSeenAt := p.lastSeenAt
    bannedAt := p.bannedAt
    messagesReceivedFrom := store.messages.countP (sent "rx")
    messagesSentTo := store.messages.countP (sent "tx")
    dmsDelivered := store.messages.countP fun m => sent "tx" m && m.acked = some 1
    dmsUndelivered := store.messages.countP fun m => sent "tx" m && m.acked = some 0
    sessionsStarted := sessions.length
    totalPlaySeconds := (sessions.map fun row => row.endedAt.getD now - row.startedAt).sum }

/-- `_DETAIL_SQL`. -/
def PlayersStore.details (store : PlayersStore) (now : Int) : List PlayerDetail :=
  store.players.map (store.detail now)

/-- `_VALID_PLAYER_SORTS`. -/
def validPlayerSorts : List (Str × (PlayerDetail → Int)) :=
  [("last_active".toList, PlayerDetail.lastSeenAt),
    ("first_active".toList, PlayerDetail.firstSeenAt),
    ("sessions".toList, fun row => row.sessionsStarted),
    ("messages_rx".toList, fun row => row.messagesReceivedFrom),
    ("messages_tx".toList, fun row => row.messagesSentTo)]

/-- `Store.player_sort_column`; `none` is its `ValueError`. -/
def playerSortColumn (sort : Str) : Option (PlayerDetail → Int) :=
  (validPlayerSorts.find? fun valid => valid.1 = sort).map Prod.snd

/-- How the engine carries out `ORDER BY column`. -/
structure OrderBy where
  arrange (column : PlayerDetail → Int) (descending : Bool) (rows : List PlayerDetail) :
    List PlayerDetail
  perm : ∀ column descending rows, (arrange column descending rows).Perm rows
  sorted : ∀ column descending rows, (arrange column descending rows).Pairwise fun a b =>
    if descending then column b ≤ column a else column a ≤ column b

/-! ## The request -/

/-- The parameters of the request. -/
structure PlayersQuery where
  sort : Str
  order : Str
  limit : Int
  cursor : Int
  /-- `Query(50, le=500)`. -/
  capped : limit ≤ 500

/-- An element of `players` in the response. -/
structure PlayerEntry where
  pubkeyPrefix : Str
  name : Option Str
  firstActiveAt : Int
  lastActiveAt : Int
  messagesReceivedFrom : Nat
  messagesSentTo : Nat
  dmsDelivered : Nat
  dmsUndelivered : Nat
  sessionsStarted : Nat
  totalPlaySeconds : Int
  banned : Bool
  deriving DecidableEq

/-- `_row_to_dict`. -/
def PlayerDetail.entry (row : PlayerDetail) : PlayerEntry :=
  { pubkeyPrefix := row.pubkeyPrefix
    name := row.name
    firstActiveAt := row.firstSeenAt
    lastActiveAt := row.lastSeenAt
    messagesReceivedFrom := row.messagesReceivedFrom
    messagesSentTo := row.messagesSentTo
    dmsDelivered := row.dmsDelivered
    dmsUndelivered := row.dmsUndelivered
    sessionsStarted := row.sessionsStarted
    totalPlaySeconds := row.totalPlaySeconds
    banned := row.bannedAt.isSome }

structure PlayersPage where
  players : List PlayerEntry
  nextCursor : Option Int
  deriving DecidableEq

inductive PlayersError
  /-- Status 400 with this description. -/
  | badRequest (description : Str)
  /-- The driver's: a parameter does not fit. -/
  | overflow
  deriving DecidableEq

/-- What a request meets. -/
structure PlayersMoment where
  store : PlayersStore
  /-- What the engine's clock shows. -/
  now : Int
  orderBy : OrderBy

/-- The rows before any are cut off. -/
def PlayersMoment.row (moment : PlayersMoment) (column : PlayerDetail → Int) (descending : Bool) :
    List PlayerDetail :=
  moment.orderBy.arrange column descending (moment.store.details moment.now)

/-- `LIMIT ? OFFSET ?`. A negative offset is none. -/
def pageRows {α : Type} (limit cursor : Int) (rows : List α) : Except PlayersError (List α) :=
  if fitsInteger limit ∧ fitsInteger cursor then .ok (limited limit (rows.drop cursor.toNat))
  else .error .overflow

/-- `list_players`, where `repr` is Python's. -/
def listPlayers (repr : Str → Str) (moment : PlayersMoment) (query : PlayersQuery) :
    Except PlayersError PlayersPage :=
  match playerSortColumn query.sort with
  | none => .error (.badRequest ("invalid sort: ".toList ++ repr query.sort))
  | some column =>
      if query.order ≠ "asc".toList ∧ query.order ≠ "desc".toList then
        .error (.badRequest ("invalid order: ".toList ++ repr query.order))
      else do
        let descending := query.order ≠ "asc".toList
        let rows ← pageRows query.limit query.cursor (moment.row column descending)
        let players := rows.map PlayerDetail.entry
        let nextCursor :=
          if (rows.length : Int) = query.limit then some (query.cursor + query.limit) else none
        return ⟨players, nextCursor⟩

end Zorkbot.Admin
