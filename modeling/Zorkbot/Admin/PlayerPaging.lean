/-
# Reading the whole list of players

A client follows the offsets while players are heard. A player who is heard may pass the place
where the next page begins: then somebody who was on a page before is on the next one again, and
the player is on none. As long as nobody passes it every player is listed once.
-/

import Zorkbot.Admin.PlayerList
import Zorkbot.Data.Offsets

namespace Zorkbot.Admin

open Zorkbot.Bot (Str)

/-! ## Following the offsets -/

/-- A player is heard. -/
structure PlayerHeard where
  player : Str
  name : Option Str
  seenAt : Int

/-- What the requests of a client meet. Between two of them known players are heard. -/
structure PlayersRun where
  moments : Nat → PlayersMoment
  heard : ∀ i, ∃ seen : List PlayerHeard,
    (∀ h ∈ seen, h.player ∈ (moments i).store.keys) ∧
      seen.foldlM (fun store h => store.playerSeen h.player h.name h.seenAt) (moments i).store =
        some (moments (i + 1)).store

/-- The answers to a client that asks for the first page and for each that follows. -/
def playerPages (repr : Str → Str) (query : PlayersQuery) (run : PlayersRun) :
    Nat → Option (Except PlayersError PlayersPage)
  | 0 => some (listPlayers repr (run.moments 0) { query with cursor := 0 })
  | n + 1 =>
      (playerPages repr query run n).bind fun result =>
        match result with
        | .ok page => page.nextCursor.map fun cursor =>
            listPlayers repr (run.moments (n + 1)) { query with cursor := cursor }
        | .error _ => none

/-- Who is on a page. -/
def playersOn : Option (Except PlayersError PlayersPage) → List PlayerEntry
  | some (.ok page) => page.players
  | some (.error _) | none => []

/-- What the client has after this many requests. -/
def playersVisited (repr : Str → Str) (query : PlayersQuery) (run : PlayersRun) :
    Nat → List PlayerEntry
  | 0 => []
  | n + 1 => playersVisited repr query run n ++ playersOn (playerPages repr query run n)

/-- Following the offsets returns every player once. -/
structure ListedOnce (repr : Str → Str) (query : PlayersQuery) (run : PlayersRun) : Prop where
  answered : ∀ n result, playerPages repr query run n = some result → ∃ page, result = .ok page
  ends : ∃ n page, playerPages repr query run n = some (.ok page) ∧ page.nextCursor = none
  once : ∀ n page, playerPages repr query run n = some (.ok page) → page.nextCursor = none →
    ((playersVisited repr query run (n + 1)).map PlayerEntry.pubkeyPrefix).Perm
      (run.moments 0).store.keys

/-- The players in the order that a request meets. -/
def PlayersRun.order (run : PlayersRun) (query : PlayersQuery) (column : PlayerDetail → Int)
    (i : Nat) : List Str :=
  ((run.moments i).row column (query.order ≠ "asc".toList)).map PlayerDetail.pubkeyPrefix

/-- Between a request and the next nobody passes the place where the next page begins. -/
def PlayersRun.Still (run : PlayersRun) (query : PlayersQuery) (column : PlayerDetail → Int)
    (i : Nat) : Prop :=
  Offsets.Steady query.limit.toNat i (run.order query column i) (run.order query column (i + 1))

instance (run : PlayersRun) (query : PlayersQuery) (column : PlayerDetail → Int) (i : Nat) :
    Decidable (run.Still query column i) :=
  inferInstanceAs (Decidable (Offsets.Steady ..))

/-! ## Who is there -/

namespace PlayersStore

@[simp]
theorem keys_updatePlayer (store : PlayersStore) (player : Str) (name : Option Str)
    (seenAt : Int) : (store.updatePlayer player name seenAt).keys = store.keys := by
  rw [keys, updatePlayer, keys, List.map_map]
  refine List.map_congr_left fun row _ => ?_
  rw [Function.comp_apply]
  split <;> rfl

/-- Nobody comes or goes when known players are heard. -/
theorem keys_of_heard {seen : List PlayerHeard} {store next : PlayersStore}
    (known : ∀ h ∈ seen, h.player ∈ store.keys)
    (done : seen.foldlM (fun store h => store.playerSeen h.player h.name h.seenAt) store =
      some next) : next.keys = store.keys := by
  induction seen generalizing store with
  | nil => exact congrArg keys (Option.some.inj done).symm
  | cons h seen ih =>
      have there := known h List.mem_cons_self
      have step : store.playerSeen h.player h.name h.seenAt =
          some (store.updatePlayer h.player h.name h.seenAt) := by
        rw [playerSeen, dif_pos there]
      rw [List.foldlM_cons, step] at done
      have after := ih (fun h' listed => by
        rw [keys_updatePlayer]
        exact known h' (List.mem_cons_of_mem h listed)) done
      rw [after, keys_updatePlayer]

theorem keys_details (store : PlayersStore) (now : Int) :
    (store.details now).map PlayerDetail.pubkeyPrefix = store.keys := by
  rw [details, List.map_map]
  rfl

end PlayersStore

theorem PlayersRun.keys_eq (run : PlayersRun) (i : Nat) :
    (run.moments i).store.keys = (run.moments 0).store.keys := by
  induction i with
  | zero => rfl
  | succ i ih =>
      obtain ⟨seen, known, done⟩ := run.heard i
      rw [PlayersStore.keys_of_heard known done, ih]

/-- The order of every moment has the same players. -/
theorem PlayersRun.order_perm (run : PlayersRun) (query : PlayersQuery)
    (column : PlayerDetail → Int) (i : Nat) :
    (run.order query column i).Perm (run.moments 0).store.keys := by
  have same := ((run.moments i).orderBy.perm column (query.order ≠ "asc".toList)
    ((run.moments i).store.details (run.moments i).now)).map PlayerDetail.pubkeyPrefix
  rwa [PlayersStore.keys_details, run.keys_eq] at same

/-! ## One page -/

section

variable {repr : Str → Str} {query : PlayersQuery} {run : PlayersRun}
  {column : PlayerDetail → Int} {n : Nat}

/-- The rows of the page with this number. -/
def PlayersRun.rows (run : PlayersRun) (query : PlayersQuery) (column : PlayerDetail → Int)
    (n : Nat) : List PlayerDetail :=
  Offsets.page query.limit.toNat n
    ((run.moments n).row column (query.order ≠ "asc".toList))

theorem PlayersRun.keys_rows (run : PlayersRun) (query : PlayersQuery)
    (column : PlayerDetail → Int) (n : Nat) :
    (run.rows query column n).map PlayerDetail.pubkeyPrefix =
      Offsets.page query.limit.toNat n (run.order query column n) :=
  Offsets.map_page ..

/-- There are no more than so many places. -/
theorem PlayersRun.length_row (run : PlayersRun) (column : PlayerDetail → Int)
    (descending : Bool) (n : Nat) :
    ((run.moments n).row column descending).length ≤ 2 ^ 48 := by
  rw [PlayersMoment.row, ((run.moments n).orderBy.perm ..).length_eq, PlayersStore.details,
    List.length_map]
  exact (run.moments n).store.bounded

/-- A request with a valid column and order. -/
structure PlayersQuery.Valid (query : PlayersQuery) (column : PlayerDetail → Int) : Prop where
  sort : playerSortColumn query.sort = some column
  order : query.order = "asc".toList ∨ query.order = "desc".toList
  one : 1 ≤ query.limit

variable (valid : query.Valid column)

include valid

/-- The answer to a request whose offset is in range. -/
theorem listPlayers_page (start : n * query.limit.toNat ≤ 2 ^ 48) :
    listPlayers repr (run.moments n) { query with cursor := (n : Int) * query.limit } =
      .ok ⟨(run.rows query column n).map PlayerDetail.entry,
        if (run.rows query column n).length = query.limit.toNat then
          some (((n + 1 : Nat) : Int) * query.limit) else none⟩ := by
  have one := valid.one
  have capped := query.capped
  have offset : ((n : Int) * query.limit).toNat = n * query.limit.toNat := by
    rw [Int.toNat_mul (Int.natCast_nonneg n) (by omega), Int.toNat_natCast]
  have nonneg : 0 ≤ (n : Int) * query.limit := Int.mul_nonneg (Int.natCast_nonneg n) (by omega)
  have fits : fitsInteger query.limit ∧ fitsInteger ((n : Int) * query.limit) :=
    ⟨⟨by omega, by omega⟩, ⟨by omega, by omega⟩⟩
  have known : ¬(query.order ≠ "asc".toList ∧ query.order ≠ "desc".toList) := by
    rintro ⟨notAsc, notDesc⟩
    exact valid.order.elim notAsc notDesc
  have cut : pageRows query.limit ((n : Int) * query.limit)
      ((run.moments n).row column (query.order ≠ "asc".toList)) =
      .ok (run.rows query column n) := by
    rw [pageRows, if_pos fits, limited, if_neg (by omega), offset]
    rfl
  have length : ((run.rows query column n).length : Int) = query.limit ↔
      (run.rows query column n).length = query.limit.toNat := by omega
  have next : (n : Int) * query.limit + query.limit = ((n + 1 : Nat) : Int) * query.limit := by
    rw [Int.natCast_add, Int.add_mul]
    omega
  unfold listPlayers
  simp only [valid.sort, if_neg known, cut]
  change Except.ok (PlayersPage.mk _ (if _ then _ else _)) = _
  simp only [length, next]

/-- While the pages are full there is another. -/
theorem playerPages_of_full
    (full : ∀ i < n, (run.rows query column i).length = query.limit.toNat) :
    playerPages repr query run n =
      some (.ok ⟨(run.rows query column n).map PlayerDetail.entry,
        if (run.rows query column n).length = query.limit.toNat then
          some (((n + 1 : Nat) : Int) * query.limit) else none⟩) := by
  induction n with
  | zero =>
      have first : listPlayers repr (run.moments 0)
          { query with cursor := (0 : Nat) * query.limit } = _ :=
        listPlayers_page valid (by omega)
      rw [Int.ofNat_zero, Int.zero_mul] at first
      exact congrArg some first
  | succ n ih =>
      have before := full n n.lt_succ_self
      have one := valid.one
      have start := (Offsets.le_length_of_full (by omega) before).trans (run.length_row ..)
      rw [playerPages, ih fun i less => full i (Nat.lt_succ_of_lt less), Option.bind_some]
      simp only [before, if_true, Option.map_some]
      exact congrArg some (listPlayers_page valid start)

/-- Behind a page that is not full there is none. -/
theorem full_of_asked {result : Except PlayersError PlayersPage}
    (asked : playerPages repr query run n = some result) :
    ∀ i < n, (run.rows query column i).length = query.limit.toNat := by
  induction n generalizing result with
  | zero => exact nofun
  | succ n ih =>
      cases before : playerPages repr query run n with
      | none =>
          rw [playerPages, before] at asked
          exact absurd asked nofun
      | some page =>
          have full := ih before
          intro i less
          rcases Nat.lt_succ_iff_lt_or_eq.mp less with less | rfl
          · exact full i less
          · by_contra short
            rw [playerPages, playerPages_of_full valid full, Option.bind_some] at asked
            simp only [short, if_false, Option.map_none] at asked
            exact absurd asked nofun

/-- The answer to a request, with what it says of the page. -/
theorem page_of_asked {result : Except PlayersError PlayersPage}
    (asked : playerPages repr query run n = some result) :
    ∃ page, result = .ok page ∧ page.players = (run.rows query column n).map PlayerDetail.entry ∧
      (page.nextCursor = none ↔ (run.rows query column n).length ≠ query.limit.toNat) := by
  refine ⟨_, Option.some.inj
    (asked.symm.trans (playerPages_of_full valid (full_of_asked valid asked))), rfl, ?_⟩
  by_cases full : (run.rows query column n).length = query.limit.toNat
  · simp [full]
  · simp [full]

/-- The players on the pages are the pages of the order. -/
theorem keys_visited
    (full : ∀ i < n, (run.rows query column i).length = query.limit.toNat) :
    (playersVisited repr query run n).map PlayerEntry.pubkeyPrefix =
      Offsets.visited query.limit.toNat (run.order query column) n := by
  induction n with
  | zero => rfl
  | succ n ih =>
      have before : ∀ i < n, (run.rows query column i).length = query.limit.toNat :=
        fun i less => full i (Nat.lt_succ_of_lt less)
      rw [playersVisited, playerPages_of_full valid before, playersOn, List.map_append, ih before,
        List.map_map, Offsets.visited_succ, ← PlayersRun.keys_rows]
      rfl

/-! ## All pages -/

/-- There are no more full pages than places. -/
theorem exists_last (run : PlayersRun) :
    ∃ n, (∀ i < n, (run.rows query column i).length = query.limit.toNat) ∧
      (run.rows query column n).length ≠ query.limit.toNat := by
  have one := valid.one
  have some_short : ∃ n, (run.rows query column n).length ≠ query.limit.toNat := by
    refine ⟨2 ^ 48, fun full => ?_⟩
    have more := (Offsets.le_length_of_full (by omega) full).trans (run.length_row ..)
    have least : 2 ^ 48 + 1 ≤ (2 ^ 48 + 1) * query.limit.toNat :=
      Nat.le_mul_of_pos_right _ (by omega)
    omega
  classical
  exact ⟨Nat.find some_short, fun i less => not_not.mp (Nat.find_min some_short less),
    Nat.find_spec some_short⟩

/-- When everything has been read, it was everybody. -/
theorem visited_perm_iff
    (full : ∀ i < n, (run.rows query column i).length = query.limit.toNat) :
    ((playersVisited repr query run (n + 1)).map PlayerEntry.pubkeyPrefix).Perm
        (run.moments 0).store.keys ↔
      (Offsets.visited query.limit.toNat (run.order query column) (n + 1)).Perm
        (run.order query column n) := by
  have pages : (playersVisited repr query run (n + 1)).map PlayerEntry.pubkeyPrefix =
      Offsets.visited query.limit.toNat (run.order query column) (n + 1) := by
    rw [playersVisited, playerPages_of_full valid full, playersOn, List.map_append,
      keys_visited valid full, List.map_map, Offsets.visited_succ, ← PlayersRun.keys_rows]
    rfl
  rw [pages]
  exact ⟨fun all => all.trans (run.order_perm query column n).symm,
    fun all => all.trans (run.order_perm query column n)⟩

omit valid in
/-- Nobody is beyond the last page. -/
theorem PlayersRun.still_of_last {k : Nat} (last : n ≤ k)
    (short : (run.rows query column n).length ≠ query.limit.toNat) : run.Still query column k := by
  have everybody : ∀ i, (run.order query column i).take ((k + 1) * query.limit.toNat) =
      run.order query column i := by
    intro i
    refine List.take_of_length_le ?_
    have short := short
    rw [← List.length_map PlayerDetail.pubkeyPrefix, PlayersRun.keys_rows] at short
    have same := (run.order_perm query column i).trans (run.order_perm query column n).symm
    rw [same.length_eq]
    exact (Offsets.length_le_of_short short).trans
      (Nat.mul_le_mul_right _ (Nat.succ_le_succ last))
  rw [Still, Offsets.Steady, everybody, everybody]
  exact (run.order_perm query column k).trans (run.order_perm query column (k + 1)).symm

end

/-- As long as nobody passes the place where the next page begins, the client is given every
player once. When that happens once, it is not. -/
theorem players_listed {repr : Str → Str} {query : PlayersQuery} {run : PlayersRun}
    {column : PlayerDetail → Int} (valid : query.Valid column) :
    ((∀ i, run.Still query column i) → ListedOnce repr query run) ∧
      ∀ k, (∀ i, i ≠ k → run.Still query column i) →
        (ListedOnce repr query run ↔ run.Still query column k) := by
  have listed : (∀ i, run.Still query column i) → ListedOnce repr query run := by
    intro still
    refine ⟨fun n result asked => ?_, ?_, fun n page asked last => ?_⟩
    · obtain ⟨page, is, _⟩ := page_of_asked valid asked
      exact ⟨page, is⟩
    · obtain ⟨n, full, short⟩ := exists_last valid run
      exact ⟨n, _, playerPages_of_full valid full, if_neg short⟩
    · obtain ⟨_, is, _, next⟩ := page_of_asked valid asked
      obtain rfl := Except.ok.inj is
      have short := next.mp last
      rw [← List.length_map PlayerDetail.pubkeyPrefix, PlayersRun.keys_rows] at short
      rw [visited_perm_iff valid (full_of_asked valid asked)]
      exact Offsets.visited_all (fun i _ => still i) short
  refine ⟨listed, fun k others => ⟨fun once => ?_, fun still => listed fun i => ?_⟩⟩
  · obtain ⟨n, page, asked, last⟩ := once.ends
    have all := once.once n page asked last
    rw [visited_perm_iff valid (full_of_asked valid asked)] at all
    obtain ⟨_, is, _, next⟩ := page_of_asked valid asked
    obtain rfl := Except.ok.inj is
    have short := next.mp last
    rcases Nat.lt_or_ge k n with less | beyond
    · rw [← List.length_map PlayerDetail.pubkeyPrefix, PlayersRun.keys_rows] at short
      exact Offsets.steady_of_visited_all (fun i before => others i before.ne)
        (fun i behind => others i behind.ne') less short all
    · exact PlayersRun.still_of_last beyond short
  · rcases eq_or_ne i k with rfl | other
    · exact still
    · exact others i other

/-! ## Two players -/

/-- Rows with the same value stay in the order of the table. -/
def OrderBy.stable : OrderBy where
  arrange column descending rows :=
    match descending with
    | true => rows.insertionSort fun a b => column b ≤ column a
    | false => rows.insertionSort fun a b => column a ≤ column b
  perm column descending rows := by
    cases descending with
    | true | false => exact List.perm_insertionSort _ _
  sorted column descending rows := by
    cases descending with
    | true =>
        have : Std.Total fun a b : PlayerDetail => column b ≤ column a :=
          ⟨fun a b => Int.le_total (column b) (column a)⟩
        have : IsTrans PlayerDetail fun a b => column b ≤ column a :=
          ⟨fun _ _ _ first second => Int.le_trans second first⟩
        exact List.pairwise_insertionSort (fun a b => column b ≤ column a) rows
    | false =>
        have : Std.Total fun a b : PlayerDetail => column a ≤ column b :=
          ⟨fun a b => Int.le_total (column a) (column b)⟩
        have : IsTrans PlayerDetail fun a b => column a ≤ column b :=
          ⟨fun _ _ _ first second => Int.le_trans first second⟩
        exact List.pairwise_insertionSort (fun a b => column a ≤ column b) rows

/-- Alice was heard at 100 and Bob at 200. -/
def twoPlayers : PlayersStore where
  players := [⟨⟨some "alice".toList, 0, 100⟩, "a11ce0000000".toList, none⟩,
    ⟨⟨some "bob".toList, 0, 200⟩, "b0b000000000".toList, none⟩]
  messages := []
  sessions := []
  unique := by decide
  bounded := by decide

/-- `?limit=1`, with the defaults for the rest. -/
def oneByOne : PlayersQuery := ⟨"last_active".toList, "desc".toList, 1, 0, by decide⟩

theorem valid_oneByOne : oneByOne.Valid PlayerDetail.lastSeenAt :=
  ⟨rfl, .inr rfl, by decide⟩

/-- After the first page one of the two is heard. -/
def heardOnce (player : Str) (known : player ∈ twoPlayers.keys) : PlayersRun where
  moments
    | 0 => ⟨twoPlayers, 1000, .stable⟩
    | _ + 1 => ⟨twoPlayers.updatePlayer player none 300, 1000, .stable⟩
  heard
    | 0 => by
        refine ⟨[⟨player, none, 300⟩], List.forall_mem_singleton.mpr known, ?_⟩
        rw [List.foldlM_cons, PlayersStore.playerSeen, dif_pos known]
        rfl
    | _ + 1 => ⟨[], nofun, rfl⟩

/-- Bob is in front anyway. -/
theorem players_listed_bob :
    ListedOnce id oneByOne (heardOnce "b0b000000000".toList (by decide)) :=
  (players_listed valid_oneByOne).1 fun
    | 0 => by decide
    | _ + 1 => List.Perm.refl _

/-- Alice passes Bob between the pages: Bob is on both, and Alice on none. -/
theorem alice_is_missing :
    (playersVisited id oneByOne (heardOnce "a11ce0000000".toList (by decide)) 3).map
        PlayerEntry.pubkeyPrefix = ["b0b000000000".toList, "b0b000000000".toList] ∧
      ¬ListedOnce id oneByOne (heardOnce "a11ce0000000".toList (by decide)) := by
  have pages : (playersVisited id oneByOne (heardOnce "a11ce0000000".toList (by decide)) 3).map
      PlayerEntry.pubkeyPrefix = ["b0b000000000".toList, "b0b000000000".toList] := by decide
  refine ⟨pages, fun listed => ?_⟩
  have all := listed.once 2 ⟨[], none⟩ (by decide) rfl
  rw [pages] at all
  exact absurd all (by decide)

end Zorkbot.Admin
