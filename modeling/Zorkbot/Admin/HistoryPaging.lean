/-
# Reading the whole session history

A client asks for the first page and then follows the cursors, while sessions begin and end,
rows are updated and old ones are deleted. The order of the rows, the comparison with the cursor
and the cursor's text agree, so the pages form one descending list in which every row that was
there throughout comes once. All of it depends on bounds that SQLite can take.
-/

import Zorkbot.Admin.SessionHistory
import Zorkbot.Data.Keyset
import Mathlib.Data.Prod.Lex
import Mathlib.Data.Finset.Card

namespace Zorkbot.Admin

open Keyset (Below IsPage Walk)
open Zorkbot.Bot (Str truthy)

/-! ## Following the cursors -/

/-- The answers to a client that asks for the first page and for each that follows;
`stores n` is what the request for page `n` meets. -/
def historyPages (query : HistoryQuery) (stores : Nat → SessionStore) :
    Nat → Option (Except HistoryError HistoryPage)
  | 0 => some (sessionHistory (stores 0) { query with cursor := none })
  | n + 1 =>
      (historyPages query stores n).bind fun result =>
        match result with
        | .ok page => page.nextCursor.map fun cursor =>
            sessionHistory (stores (n + 1)) { query with cursor := some cursor }
        | .error _ => none

/-- What is on a page. -/
def entriesOf : Option (Except HistoryError HistoryPage) → List HistoryEntry
  | some (.ok page) => page.sessions
  | some (.error _) | none => []

/-- What the client has after this many requests. -/
def historyVisited (query : HistoryQuery) (stores : Nat → SessionStore) : Nat → List HistoryEntry
  | 0 => []
  | n + 1 => historyVisited query stores n ++ entriesOf (historyPages query stores n)

/-- The history is read completely. -/
structure PagedOnce (query : HistoryQuery) (stores : Nat → SessionStore) : Prop where
  answered : ∀ n result, historyPages query stores n = some result → ∃ page, result = .ok page
  sound : ∀ n page, historyPages query stores n = some (.ok page) → ∀ entry ∈ page.sessions,
    ∃ row ∈ (stores n).sessions, query.selects none row = true ∧ entry = row.entry (stores n).players
  descending : ∀ n, (historyVisited query stores n).Pairwise fun a b =>
    b.startedAt < a.startedAt ∨ b.startedAt = a.startedAt ∧ b.id < a.id
  once : ∀ n, ((historyVisited query stores n).map HistoryEntry.id).Nodup
  /-- What matches and is there for every page has come once by the last. -/
  complete : ∀ n page, historyPages query stores n = some (.ok page) → page.nextCursor = none →
    ∀ id startedAt, (∀ i ≤ n, ∃ row ∈ (stores i).sessions,
      row.id = id ∧ row.startedAt = startedAt ∧ query.selects none row = true) →
    ((historyVisited query stores (n + 1)).map HistoryEntry.id).count id = 1
  /-- There are no more pages than rows, and one. -/
  ends : ∀ ids : Finset Int, (∀ i, ∀ row ∈ (stores i).sessions, row.id ∈ ids) →
    ∃ n ≤ ids.card, ∃ page, historyPages query stores n = some (.ok page) ∧ page.nextCursor = none

/-! ## The cursor's text -/

theorem short_of_fitsInteger {n : Int} (fits : fitsInteger n) :
    (Nat.toDigits 10 n.natAbs).length ≤ Numeral.maxDigits := by
  have few : (Nat.toDigits 10 n.natAbs).length ≤ 19 := by
    rw [Nat.length_toDigits_le_iff (by decide) (by decide)]
    have := fits.1
    have := fits.2
    omega
  exact few.trans (by decide)

theorem colon_notMem_toText (n : Int) : ':' ∉ Numeral.toText n := by
  intro there
  have digit : ':' ∈ Nat.toDigits 10 n.natAbs := by
    unfold Numeral.toText at there
    split at there
    · exact (List.mem_cons.mp there).resolve_left (by decide)
    · exact there
  exact absurd (Numeral.isDigit_of_mem digit) (by decide)

/-- A cursor is read as what it was written from. -/
theorem decodeCursor_encodeCursor {startedAt rowId : Int} (started : fitsInteger startedAt)
    (row : fitsInteger rowId) :
    decodeCursor (encodeCursor startedAt rowId) = some (startedAt, rowId) := by
  have bytes : ((Numeral.toText startedAt ++ ':' :: Numeral.toText rowId).flatMap
      String.utf8EncodeChar).toByteArray.utf8Decode? =
      some (Numeral.toText startedAt ++ ':' :: Numeral.toText rowId).toArray :=
    List.utf8Decode?_utf8Encode
  have parts : (Numeral.toText startedAt ++ ':' :: Numeral.toText rowId).splitOn ':' =
      [Numeral.toText startedAt, Numeral.toText rowId] := by
    rw [List.splitOn_append_cons_self_of_not_mem (colon_notMem_toText startedAt),
      List.splitOn_eq_singleton (colon_notMem_toText rowId)]
  rw [decodeCursor, encodeCursor, Base64.decode_encode, Option.bind_eq_bind, Option.bind_some, bytes,
    Option.bind_eq_bind, Option.bind_some, List.toList_toArray, parts]
  simp only [Numeral.ofText_toText (short_of_fitsInteger started),
    Numeral.ofText_toText (short_of_fitsInteger row)]
  rfl

theorem decodeCursor_nil : decodeCursor [] = none := by
  have text : [].toByteArray.utf8Decode? = some #[] := ByteArray.utf8Decode?_empty
  rw [decodeCursor, Base64.decode, Base64.decodeFrom, if_pos rfl, Option.bind_eq_bind,
    Option.bind_some, text]
  rfl

theorem truthy_encodeCursor {startedAt rowId : Int} (started : fitsInteger startedAt)
    (row : fitsInteger rowId) :
    truthy (some (encodeCursor startedAt rowId)) = some (encodeCursor startedAt rowId) := by
  have nonempty : encodeCursor startedAt rowId ≠ [] := by
    intro empty
    have read := decodeCursor_encodeCursor started row
    rw [empty, decodeCursor_nil] at read
    exact Option.some_ne_none _ read.symm
  simp [truthy, nonempty]

/-! ## What changes and what stays -/

namespace SessionStore

/-- What is the same of an older row: when the session began. -/
structure Later (store next : SessionStore) : Prop where
  sequence : store.sequence ≤ next.sequence
  born : ∀ row ∈ next.sessions, row.id ≤ store.sequence →
    ∃ old ∈ store.sessions, old.id = row.id ∧ old.startedAt = row.startedAt

theorem Later.refl (store : SessionStore) : store.Later store :=
  ⟨le_rfl, fun row there _ => ⟨row, there, rfl, rfl⟩⟩

theorem Later.trans {store next after : SessionStore} (first : store.Later next)
    (second : next.Later after) : store.Later after := by
  refine ⟨first.sequence.trans second.sequence, fun row there older => ?_⟩
  obtain ⟨old, listed, id, started⟩ := second.born row there (older.trans first.sequence)
  obtain ⟨oldest, listed, id', started'⟩ := first.born old listed (id ▸ older)
  exact ⟨oldest, listed, id'.trans id, started'.trans started⟩

theorem later_updateRows (store : SessionStore) (f : StoredSession → StoredSession)
    (kept : ∀ row, (f row).id = row.id ∧ (f row).startedAt = row.startedAt) :
    store.Later (store.updateRows f kept) := by
  refine ⟨le_rfl, fun row there _ => ?_⟩
  obtain ⟨old, listed, rfl⟩ := List.mem_map.mp there
  exact ⟨old, listed, (kept old).1.symm, (kept old).2.symm⟩

theorem later_execute {botRunId : Str} {store next : SessionStore} {statement : EventStatement}
    (done : store.execute botRunId statement = some next) : store.Later next := by
  cases statement with
  | insertMessage | insertCommand | upsertPlayer player name seenAt =>
      obtain rfl := Option.some.inj done
      exact ⟨le_rfl, fun row there _ => ⟨row, there, rfl, rfl⟩⟩
  | endSession num endedAt reason | raisePeakWatchers num watchers =>
      obtain rfl := Option.some.inj done
      exact store.later_updateRows ..
  | insertSession num player startedAt =>
      rw [execute, insertSession] at done
      split_ifs at done with taken known fits
      obtain rfl := Option.some.inj done
      refine ⟨(Int.lt_succ _).le, fun row there older => ?_⟩
      rcases List.mem_append.mp there with there | new
      · exact ⟨row, there, rfl, rfl⟩
      · rw [List.mem_singleton.mp new] at older
        exact absurd older (Int.not_le.mpr (Int.lt_succ _))

theorem later_change (store : SessionStore) (c : Change) : store.Later (store.change c) := by
  cases c with
  | statement botRunId statement =>
      rw [change]
      cases done : store.execute botRunId statement with
      | none => exact .refl store
      | some next => exact later_execute done
  | prune cutoff =>
      exact ⟨le_rfl, fun row there _ => ⟨row, (List.mem_filter.mp there).1, rfl, rfl⟩⟩

theorem later_changes (store : SessionStore) (changes : List Change) :
    store.Later (changes.foldl change store) := by
  induction changes generalizing store with
  | nil => exact .refl store
  | cons c changes ih => exact (store.later_change c).trans (ih _)

/-- A row keeps its id and its beginning. -/
theorem Later.startedAt_eq {store next : SessionStore} (later : store.Later next)
    {row row' : StoredSession} (there : row ∈ store.sessions) (there' : row' ∈ next.sessions)
    (same : row.id = row'.id) : row.startedAt = row'.startedAt := by
  obtain ⟨old, listed, id, started⟩ := later.born row' there' (same ▸ store.issued row there)
  obtain rfl := List.inj_on_of_nodup_map store.unique there listed (same.trans id.symm)
  exact started

end SessionStore

/-! ## One page -/

/-- What the rows are sorted by. -/
def StoredSession.key (row : StoredSession) : Int ×ₗ Int := toLex (row.startedAt, row.id)

def HistoryEntry.key (entry : HistoryEntry) : Int ×ₗ Int := toLex (entry.startedAt, entry.id)

theorem precedes_iff (a b : StoredSession) : Precedes a b ↔ a.key ≥ b.key := by
  unfold Precedes StoredSession.key
  exact (Prod.Lex.toLex_le_toLex (x := (b.startedAt, b.id)) (y := (a.startedAt, a.id))).symm

/-- The clauses on a row are those of the first page and the cursor's. -/
theorem selects_iff (query : HistoryQuery) (cursor : Option (Int × Int)) (row : StoredSession) :
    query.selects cursor row = true ↔
      query.selects none row = true ∧ Below (cursor.map toLex) row.key := by
  cases cursor with
  | none => exact ⟨fun shown => ⟨shown, nofun⟩, And.left⟩
  | some cursor =>
      have below : Below ((some cursor).map toLex) row.key ↔
          row.startedAt < cursor.1 ∨ row.startedAt = cursor.1 ∧ row.id < cursor.2 := by
        have single : Below (some (toLex cursor)) row.key ↔ row.key < toLex cursor := by
          simp [Below]
        unfold StoredSession.key at single
        exact single.trans Prod.Lex.toLex_lt_toLex
      rw [below]
      simp [HistoryQuery.selects]

/-- What there is to be shown. -/
def Shown (query : HistoryQuery) (store : SessionStore) (k : Int ×ₗ Int) : Prop :=
  ∃ row ∈ store.sessions, query.selects none row = true ∧ row.key = k

theorem isPage_sorted (query : HistoryQuery) (cursor : Option (Int × Int)) (store : SessionStore)
    (limit : Nat) :
    IsPage limit (Shown query store) (cursor.map toLex)
      ((((store.sessions.filter (query.selects cursor)).insertionSort Precedes).take limit).map
        StoredSession.key) := by
  rw [List.map_take, List.map_insertionSort Precedes (· ≥ ·) _ _ fun a _ b _ => precedes_iff a b]
  refine Keyset.isPage_take ?_ fun k => ?_
  · have keys : (store.sessions.map StoredSession.key).Nodup := by
      refine List.Nodup.of_map (fun k => (ofLex k).2) ?_
      rw [List.map_map]
      exact store.unique
    exact keys.sublist (List.filter_sublist.map _)
  · constructor
    · intro there
      obtain ⟨row, listed, rfl⟩ := List.mem_map.mp there
      obtain ⟨there, selected⟩ := List.mem_filter.mp listed
      obtain ⟨shown, below⟩ := (selects_iff query cursor row).mp selected
      exact ⟨⟨row, there, shown, rfl⟩, below⟩
    · rintro ⟨⟨row, there, shown, rfl⟩, below⟩
      have selected := (selects_iff query cursor row).mpr ⟨shown, below⟩
      exact List.mem_map.mpr ⟨row, List.mem_filter.mpr ⟨there, selected⟩, rfl⟩

/-- The request for a page with the cursor of a row, or with none. -/
def HistoryQuery.after (query : HistoryQuery) (cursor : Option (Int × Int)) : HistoryQuery :=
  { query with cursor := cursor.map fun cursor => encodeCursor cursor.1 cursor.2 }

/-- The answer to a request whose bounds fit. -/
structure PageAnswer (query : HistoryQuery) (store : SessionStore) (cursor : Option (Int × Int))
    (rows : List StoredSession) (page : HistoryPage) : Prop where
  sessions : page.sessions = rows.map (StoredSession.entry store.players)
  listed : ∀ row ∈ rows, row ∈ store.sessions ∧ query.selects none row = true
  isPage : IsPage query.limit.toNat (Shown query store) (cursor.map toLex)
    (rows.map StoredSession.key)
  next : page.nextCursor = if rows.length = query.limit.toNat then
    rows.getLast?.map fun last => encodeCursor last.startedAt last.id else none

/-- The bounds of a query that SQLite can take. -/
structure HistoryQuery.Fits (query : HistoryQuery) : Prop where
  from_ : ∀ n ∈ query.from_, fitsInteger n
  to_ : ∀ n ∈ query.to_, fitsInteger n

theorem readCursor_after (query : HistoryQuery) {cursor : Option (Int × Int)}
    (written : ∀ c ∈ cursor, fitsInteger c.1 ∧ fitsInteger c.2) :
    readCursor (query.after cursor).cursor = .ok cursor := by
  cases cursor with
  | none => rfl
  | some c =>
      obtain ⟨started, row⟩ := written c rfl
      have text : (query.after (some c)).cursor = some (encodeCursor c.1 c.2) := rfl
      simp only [readCursor, text, truthy_encodeCursor started row,
        decodeCursor_encodeCursor started row]

theorem HistoryQuery.Fits.params {query : HistoryQuery} (fits : query.Fits)
    (one : 1 ≤ query.limit) {cursor : Option (Int × Int)}
    (written : ∀ c ∈ cursor, fitsInteger c.1 ∧ fitsInteger c.2) :
    ∀ n ∈ query.params cursor, fitsInteger n := by
  intro n there
  simp only [HistoryQuery.params, List.mem_append, Option.mem_toList, List.mem_flatMap,
    List.mem_cons, List.not_mem_nil, or_false] at there
  rcases there with ((there | there) | ⟨c, there, rfl | rfl | rfl⟩) | rfl
  · exact fits.from_ n there
  · exact fits.to_ n there
  · exact (written c there).1
  · exact (written c there).1
  · exact (written c there).2
  · exact ⟨by omega, by have := query.capped; omega⟩

theorem sessionHistory_after {query : HistoryQuery} (store : SessionStore) (fits : query.Fits)
    (anyone : query.player = none) (one : 1 ≤ query.limit) {cursor : Option (Int × Int)}
    (written : ∀ c ∈ cursor, fitsInteger c.1 ∧ fitsInteger c.2) :
    ∃ rows page, sessionHistory store (query.after cursor) = .ok page ∧
      PageAnswer query store cursor rows page := by
  have read := readCursor_after query written
  have bound := fits.params one written
  have rowsAre : query.rows cursor store =
      .ok (((store.sessions.filter (query.selects cursor)).insertionSort Precedes).take
        query.limit.toNat) := by
    rw [HistoryQuery.rows, anyone, if_neg (by simp), if_pos bound, limited, if_neg (by omega)]
  have isPage := isPage_sorted query cursor store query.limit.toNat
  have listed : ∀ row ∈ ((store.sessions.filter (query.selects cursor)).insertionSort
      Precedes).take query.limit.toNat, row ∈ store.sessions ∧ query.selects none row = true := by
    intro row there
    obtain ⟨there, selected⟩ :=
      List.mem_filter.mp ((List.mem_insertionSort _).mp (List.mem_of_mem_take there))
    exact ⟨there, ((selects_iff query cursor row).mp selected).1⟩
  generalize ((store.sessions.filter (query.selects cursor)).insertionSort Precedes).take
    query.limit.toNat = rows at rowsAre isPage listed
  have asked : sessionHistory store (query.after cursor) = query.respond store.players rows := by
    have nobody : ¬((query.after cursor).player.any fun player => !isPubkey player) = true := by
      change ¬(query.player.any fun player => !isPubkey player) = true
      rw [anyone]
      exact Bool.false_ne_true
    rw [sessionHistory, if_neg nobody, read]
    change (query.rows cursor store >>= fun rows => query.respond store.players rows) = _
    rw [rowsAre]
    rfl
  have length : (rows.length : Int) = query.limit ↔ rows.length = query.limit.toNat := by omega
  rw [asked]
  unfold HistoryQuery.respond
  by_cases full : rows.length = query.limit.toNat
  · obtain ⟨last, ends⟩ : ∃ last, rows.getLast? = some last := by
      rw [← Option.isSome_iff_exists, List.getLast?_isSome]
      rintro rfl
      simp only [List.length_nil] at full
      omega
    refine ⟨rows, _, by simp only [if_pos (length.mpr full), ends]; rfl, rfl, listed, isPage, ?_⟩
    simp only [if_pos full, ends, Option.map_some]
  · exact ⟨rows, _, if_neg (mt length.mp full), rfl, listed, isPage, (if_neg full).symm⟩

/-! ## All pages -/

section

variable {query : HistoryQuery} {stores : Nat → SessionStore} {n : Nat}

theorem PageAnswer.keys {store : SessionStore} {cursor : Option (Int × Int)}
    {rows : List StoredSession} {page : HistoryPage}
    (answer : PageAnswer query store cursor rows page) :
    page.sessions.map HistoryEntry.key = rows.map StoredSession.key := by
  rw [answer.sessions, List.map_map]
  rfl

theorem historyVisited_succ {page : HistoryPage}
    (asked : historyPages query stores n = some (.ok page)) :
    historyVisited query stores (n + 1) = historyVisited query stores n ++ page.sessions := by
  rw [historyVisited, asked, entriesOf]

/-- Where the client is: it has all it will get, or it asks from below what it has. -/
inductive Reading (query : HistoryQuery) (stores : Nat → SessionStore) (n : Nat) : Prop
  | spent : historyPages query stores n = none →
      ((historyVisited query stores n).map HistoryEntry.key).Pairwise (· > ·) →
      Reading query stores n
  | asking (cursor : Option (Int × Int)) :
      historyPages query stores n = some (sessionHistory (stores n) (query.after cursor)) →
      (∀ c ∈ cursor, fitsInteger c.1 ∧ fitsInteger c.2) →
      Walk query.limit.toNat (fun i => Shown query (stores i)) n (cursor.map toLex)
        ((historyVisited query stores n).map HistoryEntry.key) →
      Reading query stores n

variable (fits : query.Fits) (anyone : query.player = none) (one : 1 ≤ query.limit)

include fits anyone one

/-- A page, and the next request or none. -/
theorem Reading.succ (reading : Reading query stores n) : Reading query stores (n + 1) := by
  cases reading with
  | spent spent descending =>
      refine .spent (by rw [historyPages, spent, Option.bind_none]) ?_
      rw [historyVisited, spent, entriesOf, List.append_nil]
      exact descending
  | asking cursor asked written walk =>
      obtain ⟨rows, page, answered, answer⟩ :=
        sessionHistory_after (stores n) fits anyone one written
      rw [answered] at asked
      have visited := congrArg (List.map HistoryEntry.key) (historyVisited_succ asked)
      rw [List.map_append, answer.keys] at visited
      have next := answer.next
      by_cases full : rows.length = query.limit.toNat
      · rw [if_pos full] at next
        obtain ⟨last, ends⟩ : ∃ last, rows.getLast? = some last := by
          rw [← Option.isSome_iff_exists, List.getLast?_isSome]
          rintro rfl
          simp only [List.length_nil] at full
          omega
        rw [ends, Option.map_some] at next
        refine .asking (some (last.startedAt, last.id)) ?_ ?_ ?_
        · rw [historyPages, asked, Option.bind_some]
          simp only [next]
          rfl
        · rintro _ ⟨⟩
          exact (stores n).stored last (answer.listed last (List.mem_of_getLast? ends)).1
        · rw [visited]
          refine .page walk answer.isPage (by rw [List.length_map, full]) ?_
          rw [List.getLast?_map, ends]
          rfl
      · rw [if_neg full] at next
        refine .spent ?_ ?_
        · rw [historyPages, asked, Option.bind_some]
          simp only [next]
          rfl
        · rw [visited]
          exact walk.descending_append walk.descending answer.isPage

theorem reading (n : Nat) : Reading query stores n := by
  induction n with
  | zero => exact .asking none rfl nofun .start
  | succ n ih => exact ih.succ fits anyone one

theorem keys_descending (n : Nat) :
    ((historyVisited query stores n).map HistoryEntry.key).Pairwise (· > ·) := by
  cases reading fits anyone one n with
  | spent _ descending => exact descending
  | asking _ _ _ walk => exact walk.descending

/-- What a request was answered with. -/
theorem answer_of_asked {result : Except HistoryError HistoryPage}
    (asked : historyPages query stores n = some result) :
    ∃ cursor rows page, result = .ok page ∧ PageAnswer query (stores n) cursor rows page ∧
      Walk query.limit.toNat (fun i => Shown query (stores i)) n (cursor.map toLex)
        ((historyVisited query stores n).map HistoryEntry.key) := by
  cases (reading fits anyone one n : Reading query stores n) with
  | spent spent _ => exact absurd (spent.symm.trans asked) nofun
  | asking cursor asking written walk =>
      obtain ⟨rows, page, answered, answer⟩ :=
        sessionHistory_after (stores n) fits anyone one written
      obtain rfl := Option.some.inj (asking.symm.trans asked)
      exact ⟨cursor, rows, page, answered, answer, walk⟩

/-- What the client has was in the table. -/
theorem mem_stores_of_visited {entry : HistoryEntry} (there : entry ∈ historyVisited query stores n) :
    ∃ i, ∃ row ∈ (stores i).sessions, row.id = entry.id ∧ row.startedAt = entry.startedAt := by
  induction n with
  | zero => exact absurd there List.not_mem_nil
  | succ n ih =>
      rcases List.mem_append.mp there with there | new
      · exact ih there
      · cases asked : historyPages query stores n with
        | none =>
            rw [asked] at new
            exact absurd new List.not_mem_nil
        | some result =>
            obtain ⟨_, rows, page, rfl, answer, _⟩ := answer_of_asked fits anyone one asked
            rw [asked, entriesOf, answer.sessions] at new
            obtain ⟨row, listed, rfl⟩ := List.mem_map.mp new
            exact ⟨n, row, (answer.listed row listed).1, rfl, rfl⟩

/-- An id comes once. -/
theorem nodup_visited (later : ∀ i j, i ≤ j → (stores i).Later (stores j)) (n : Nat) :
    ((historyVisited query stores n).map HistoryEntry.id).Nodup := by
  refine List.pairwise_map.mpr ?_
  refine (List.pairwise_map.mp (keys_descending fits anyone one n)).imp_of_mem ?_
  intro a b there there' ordered same
  obtain ⟨i, row, listed, id, started⟩ := mem_stores_of_visited fits anyone one there
  obtain ⟨j, row', listed', id', started'⟩ := mem_stores_of_visited fits anyone one there'
  have ids : row.id = row'.id := id.trans (same.trans id'.symm)
  have begun : row.startedAt = row'.startedAt := by
    rcases Nat.le_total i j with before | after
    · exact (later i j before).startedAt_eq listed listed' ids
    · exact ((later j i after).startedAt_eq listed' listed ids.symm).symm
  have keys : a.key = b.key := by
    rw [HistoryEntry.key, HistoryEntry.key, same, ← started, ← started', begun]
  exact absurd ordered (keys ▸ lt_irrefl _)

/-- While no page was the last there is another. -/
theorem asked_of_not_ended (unended : ∀ i < n, ¬∃ page,
    historyPages query stores i = some (.ok page) ∧ page.nextCursor = none) :
    ∃ result, historyPages query stores n = some result := by
  induction n with
  | zero => exact ⟨_, rfl⟩
  | succ n ih =>
      obtain ⟨result, asked⟩ := ih fun i before => unended i (before.trans n.lt_succ_self)
      obtain ⟨_, _, page, rfl, _⟩ := answer_of_asked fits anyone one asked
      cases next : page.nextCursor with
      | none => exact absurd ⟨page, asked, next⟩ (unended n n.lt_succ_self)
      | some cursor =>
          rw [historyPages, asked, Option.bind_some]
          simp only [next]
          exact ⟨_, rfl⟩

/-- A page for each row and one more is too many. -/
theorem ends_of_finite (later : ∀ i j, i ≤ j → (stores i).Later (stores j)) (ids : Finset Int)
    (all : ∀ i, ∀ row ∈ (stores i).sessions, row.id ∈ ids) :
    ∃ n ≤ ids.card, ∃ page,
      historyPages query stores n = some (.ok page) ∧ page.nextCursor = none := by
  by_contra unended
  obtain ⟨result, asked⟩ := asked_of_not_ended (n := ids.card + 1) fits anyone one
    fun i before last => unended ⟨i, Nat.le_of_lt_succ before, last⟩
  obtain ⟨_, _, _, _, _, walk⟩ := answer_of_asked fits anyone one asked
  have long := walk.length
  rw [List.length_map] at long
  have few : ((historyVisited query stores (ids.card + 1)).map HistoryEntry.id).length ≤
      ids.card := by
    rw [← List.toFinset_card_of_nodup (nodup_visited fits anyone one later _)]
    refine Finset.card_le_card fun id there => ?_
    obtain ⟨entry, visited, rfl⟩ := List.mem_map.mp (List.mem_toFinset.mp there)
    obtain ⟨i, row, listed, same, _⟩ := mem_stores_of_visited fits anyone one visited
    exact same ▸ all i row listed
  rw [List.length_map, long] at few
  have least : ids.card + 1 ≤ (ids.card + 1) * query.limit.toNat :=
    Nat.le_mul_of_pos_right _ (by omega)
  omega

theorem pagedOnce (later : ∀ i j, i ≤ j → (stores i).Later (stores j)) : PagedOnce query stores where
  answered n result asked := by
    obtain ⟨_, _, page, is, _⟩ := answer_of_asked fits anyone one asked
    exact ⟨page, is⟩
  sound n page asked entry there := by
    obtain ⟨_, rows, _, is, answer, _⟩ := answer_of_asked fits anyone one asked
    obtain rfl := Except.ok.inj is
    rw [answer.sessions] at there
    obtain ⟨row, listed, rfl⟩ := List.mem_map.mp there
    exact ⟨row, (answer.listed row listed).1, (answer.listed row listed).2, rfl⟩
  descending n := (List.pairwise_map.mp (keys_descending fits anyone one n)).imp fun {a b} ordered =>
    (Prod.Lex.toLex_lt_toLex (x := (b.startedAt, b.id)) (y := (a.startedAt, a.id))).mp ordered
  once n := nodup_visited fits anyone one later n
  complete n page asked last id startedAt stays := by
    obtain ⟨_, rows, _, is, answer, walk⟩ := answer_of_asked fits anyone one asked
    obtain rfl := Except.ok.inj is
    have short : (rows.map StoredSession.key).length ≠ query.limit.toNat := by
      intro full
      rw [List.length_map] at full
      have next := answer.next
      rw [last, if_pos full, eq_comm, Option.map_eq_none_iff, List.getLast?_eq_none_iff] at next
      rw [next, List.length_nil] at full
      omega
    have visited := walk.mem_of_stays answer.isPage short (k := toLex (startedAt, id))
      fun i before => by
        obtain ⟨row, there, rfl, rfl, shown⟩ := stays i before
        exact ⟨row, there, shown, rfl⟩
    rw [← answer.keys, ← List.map_append, ← historyVisited_succ asked] at visited
    obtain ⟨entry, there, same⟩ := List.mem_map.mp visited
    have is : entry.id = id := congrArg (fun k => (ofLex k).2) same
    refine List.count_eq_one_of_mem (nodup_visited fits anyone one later _) ?_
    exact is ▸ List.mem_map_of_mem there
  ends := ends_of_finite fits anyone one later

end

theorem later_of_le {stores : Nat → SessionStore}
    (evolves : ∀ i, ∃ changes : List SessionStore.Change,
      stores (i + 1) = changes.foldl SessionStore.change (stores i))
    (i j : Nat) (before : i ≤ j) : (stores i).Later (stores j) := by
  induction before with
  | refl => exact .refl _
  | @step j _ ih =>
      obtain ⟨changes, next⟩ := evolves j
      rw [next]
      exact ih.trans ((stores j).later_changes changes)

/-- Whatever changes between the requests, the history is read completely, provided that SQLite
can take the bounds; otherwise the first request fails. -/
theorem pagedOnce_iff {stores : Nat → SessionStore}
    (evolves : ∀ i, ∃ changes : List SessionStore.Change,
      stores (i + 1) = changes.foldl SessionStore.change (stores i))
    (from_ to_ : Option Int) (limit : Int) (one : 1 ≤ limit) (capped : limit ≤ 500) :
    PagedOnce ⟨from_, to_, none, limit, none, capped⟩ stores ↔
      (∀ n ∈ from_, fitsInteger n) ∧ ∀ n ∈ to_, fitsInteger n := by
  constructor
  · intro paged
    obtain ⟨page, answered⟩ := paged.answered 0 _ rfl
    have bound : ∀ n ∈ HistoryQuery.params ⟨from_, to_, none, limit, none, capped⟩ none,
        fitsInteger n := by
      by_contra unbound
      have failed : HistoryQuery.rows ⟨from_, to_, none, limit, none, capped⟩ none (stores 0) =
          .error .overflow := by
        rw [HistoryQuery.rows, if_neg (by simp), if_neg unbound]
      change (HistoryQuery.rows _ _ _ >>= _) = _ at answered
      rw [failed] at answered
      exact absurd answered nofun
    constructor
    · exact fun n there => bound n (by simp [HistoryQuery.params, Option.mem_def.mp there])
    · exact fun n there => bound n (by simp [HistoryQuery.params, Option.mem_def.mp there])
  · exact fun fits => pagedOnce ⟨fits.1, fits.2⟩ rfl one (later_of_le evolves)

/-- A table of one session. -/
def oneSession : SessionStore where
  players := Table.empty.set "a11ce0000000".toList ⟨some "alice".toList, 0, 0⟩
  sessions := [⟨⟨"run".toList, 1, "a11ce0000000".toList, 0, none, none, 0⟩, 1⟩]
  sequence := 1
  unique := by decide
  issued := by
    rintro _ (_ | ⟨_, ⟨⟩⟩)
    exact le_rfl
  stored := by
    rintro _ (_ | ⟨_, ⟨⟩⟩)
    decide

/-- A second session that began in the same second. -/
def tied : SessionStore :=
  oneSession.change (.statement "run".toList (.insertSession 2 "a11ce0000000".toList 0))

/-- After the first request the first session ends and a third begins, yet in the same second. -/
def whileReading : Nat → SessionStore
  | 0 => tied
  | _ + 1 =>
      [.statement "run".toList (.endSession 1 1 .playerEnd),
        .statement "run".toList (.insertSession 3 "a11ce0000000".toList 0)].foldl
        SessionStore.change tied

theorem pagedOnce_iff_whileReading :
    PagedOnce ⟨some 0, none, none, 1, none, by decide⟩ whileReading ∧
      (historyVisited ⟨some 0, none, none, 1, none, by decide⟩ whileReading 2).map
        (fun entry => (entry.id, entry.endedAt)) = [(2, none), (1, some 1)] := by
  have evolves (i : Nat) : ∃ changes : List SessionStore.Change,
      whileReading (i + 1) = changes.foldl SessionStore.change (whileReading i) := by
    cases i with
    | zero => exact ⟨_, rfl⟩
    | succ i => exact ⟨[], rfl⟩
  refine ⟨(pagedOnce_iff evolves (some 0) none 1 (by decide) (by decide)).mpr ⟨?_, nofun⟩,
    by decide +kernel⟩
  intro n there
  obtain rfl := Option.some.inj there
  decide

/-- A bound that SQLite cannot take: the session is before it and the request fails. -/
theorem bound_unanswered :
    sessionHistory oneSession ⟨none, some (2 ^ 63), none, 100, none, by decide⟩ =
        .error .overflow ∧
      ¬PagedOnce ⟨none, some (2 ^ 63), none, 100, none, by decide⟩ fun _ => oneSession := by
  have failed : sessionHistory oneSession ⟨none, some (2 ^ 63), none, 100, none, by decide⟩ =
      .error .overflow := by decide
  refine ⟨failed, fun paged => ?_⟩
  obtain ⟨page, answered⟩ := paged.answered 0 _ rfl
  exact absurd (failed.symm.trans answered) nofun

end Zorkbot.Admin
