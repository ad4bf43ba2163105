/-
# The session registry

`SessionState` tracks who plays which session and who watches it, in three maps
and in the watcher set of each record. Records are objects: a handler that holds
one sees the watchers it has now, and a removed record keeps those it had.

`Consistent` is what ties the maps and the records together. `add_session` and
`add_watcher` leave one check each to their callers.
-/

import Mathlib.Data.Finset.Card
import Zorkbot.Bot.Addressing
import Zorkbot.Data.Table

namespace Zorkbot.Bot

/-- How an f-string shows a number. -/
def str (n : Int) : Str := (toString n).toList

structure SessionRecord where
  num : Int
  playerId : Str
  playerName : Str
  /-- The `pubkey_prefix`es of the current watchers. -/
  watchers : Finset Str
  deriving DecidableEq

/-- The `reason` of `remove_session`. -/
inductive EndReason
  | playerEnd
  | adminEnd
  | reset
  | serverSide
  | shutdown
  deriving DecidableEq

/-- What the event sink is told about sessions. -/
inductive SinkEvent
  | sessionStarted (record : SessionRecord)
  | sessionEnded (record : SessionRecord) (reason : EndReason)
  | watchersChanged (record : SessionRecord)
  | transcript (num : Int) (playerName command output : Str)
  deriving DecidableEq

structure SessionState where
  /-- Every record ever created, by the order of creation. -/
  records : List SessionRecord
  /-- `_sessions`, the players' records. -/
  sessions : Table Str Nat
  /-- `_num_to_player`. -/
  numToPlayer : Table Int Str
  /-- `_watching`. -/
  watching : Table Str Int
  nextNum : Int
  sink : List SinkEvent

/-- The value of `active_state`. -/
inductive ActiveState
  | playing
  | watching
  | none
  deriving DecidableEq

namespace SessionState

def init : SessionState := ⟨[], .empty, .empty, .empty, 1, []⟩

/-- A record, by its place in the order of creation. -/
def record (s : SessionState) (r : Nat) : SessionRecord :=
  (s.records[r]?).getD ⟨0, [], [], ∅⟩

/-- The sink is told something. -/
def emit (e : SinkEvent) (s : SessionState) : SessionState := { s with sink := s.sink ++ [e] }

/-! ## The session lifecycle -/

/-- `add_session`. The caller has verified that the player has no session. -/
def addSession (p name : Str) (s : SessionState) : Nat × SessionState :=
  let record : SessionRecord := ⟨s.nextNum, p, name, ∅⟩
  (s.records.length,
    { s with
      records := s.records ++ [record]
      sessions := s.sessions.set p s.records.length
      numToPlayer := s.numToPlayer.set s.nextNum p
      nextNum := s.nextNum + 1 }.emit (.sessionStarted record))

/-- A session and its watchers leave the maps. -/
def discard (p : Str) (r : Nat) (s : SessionState) : SessionState :=
  { s with
    sessions := s.sessions.erase p
    numToPlayer := s.numToPlayer.erase (s.record r).num
    watching := s.watching.without fun w => w ∈ (s.record r).watchers }

/-- `remove_session`. -/
def removeSession (p : Str) (reason : EndReason) (s : SessionState) :
    Option Nat × SessionState :=
  match s.sessions.get p with
  | none => (none, s)
  | some r => (some r, (s.discard p r).emit (.sessionEnded (s.record r) reason))

/-- `get_session`. -/
def getSession (p : Str) (s : SessionState) : Option Nat := s.sessions.get p

/-- `get_session_by_num`. -/
def getSessionByNum (n : Int) (s : SessionState) : Option Nat :=
  (s.numToPlayer.get n).bind s.sessions.get

/-- `all_sessions`, oldest first. -/
def allSessions (s : SessionState) : List Nat := (s.sessions.rows.map (·.2)).reverse

/-! ## The watcher lifecycle -/

/-- The watcher set of a record becomes another. -/
def setWatchers (r : Nat) (watchers : Finset Str) (s : SessionState) : SessionState :=
  let record := { s.record r with watchers := watchers }
  { s with records := s.records.set r record }.emit (.watchersChanged record)

/-- `add_watcher`, with the configured `max_watchers_per_session`. The text is
that of an operation that cannot proceed; the caller has verified that nobody
watches twice. -/
def addWatcher (maxWatchers : Int) (w : Str) (n : Int) (s : SessionState) :
    Option Str × SessionState :=
  match s.getSessionByNum n with
  | none => (some ("Zork I Session #".toList ++ str n ++ " is not active.".toList), s)
  | some r =>
      if maxWatchers ≤ (s.record r).watchers.card then
        (some ("Zork I Session #".toList ++ str n ++
          " already has the maximum number of watchers.".toList), s)
      else
        (none, { s with watching := s.watching.set w n }.setWatchers r
          (insert w (s.record r).watchers))

/-- `remove_watcher`. -/
def removeWatcher (w : Str) (s : SessionState) : Option Int × SessionState :=
  match s.watching.get w with
  | none => (none, s)
  | some n =>
      match s.getSessionByNum n with
      | none => (some n, { s with watching := s.watching.erase w })
      | some r =>
          (some n, { s with watching := s.watching.erase w }.setWatchers r
            ((s.record r).watchers.erase w))

/-- `watching_session`. -/
def watchingSession (w : Str) (s : SessionState) : Option Int := s.watching.get w

/-- `all_watchers`, oldest first. -/
def allWatchers (s : SessionState) : List (Str × Int) :=
  (s.watching.rows.map fun row => (row.1, row.2)).reverse

/-- `active_state`. -/
def activeState (p : Str) (s : SessionState) : ActiveState :=
  if (s.sessions.get p).isSome then .playing
  else if (s.watching.get p).isSome then .watching
  else .none

theorem activeState_eq_none {p : Str} {s : SessionState} (idle : s.activeState p = .none) :
    s.sessions.get p = Option.none ∧ s.watching.get p = Option.none := by
  unfold activeState at idle
  split at idle
  · cases idle
  · next vacant =>
      split at idle
      · cases idle
      · next unoccupied => simp_all

/-- The player plays the session of this record. -/
def Plays (s : SessionState) (p : Str) (r : Nat) : Prop := s.sessions.get p = some r

theorem mem_allSessions {s : SessionState} {r : Nat} :
    r ∈ s.allSessions ↔ ∃ p, s.Plays p r := by
  simp only [allSessions, List.mem_reverse, List.mem_map, Plays]
  constructor
  · rintro ⟨⟨p, r⟩, listed, rfl⟩
    exact ⟨p, Table.mem_rows_iff.mp listed⟩
  · rintro ⟨p, plays⟩
    exact ⟨⟨p, r⟩, Table.mem_rows_iff.mpr plays, rfl⟩

theorem activeState_eq_playing {p : Str} {s : SessionState} (busy : s.activeState p = .playing) :
    ∃ r, s.Plays p r := by
  unfold activeState at busy
  split at busy
  · next there => exact Option.isSome_iff_exists.mp there
  · split at busy <;> cases busy

/-! ## Consistency -/

structure Consistent (maxWatchers : Int) (s : SessionState) : Prop where
  there : ∀ {p r}, s.Plays p r → r < s.records.length
  /-- Each record's number maps to its player, -/
  forth : ∀ {p r}, s.Plays p r → s.numToPlayer.get (s.record r).num = some p
  /-- and back. -/
  back : ∀ {n p}, s.numToPlayer.get n = some p → ∃ r, s.Plays p r ∧ (s.record r).num = n
  owner : ∀ {p r}, s.Plays p r → (s.record r).playerId = p
  below : ∀ record ∈ s.records, record.num < s.nextNum
  /-- No number was assigned twice. -/
  once : (s.records.map (·.num)).Nodup
  /-- The watcher set of an active record is what the map says. -/
  watch : ∀ {p r}, s.Plays p r → ∀ w,
    w ∈ (s.record r).watchers ↔ s.watching.get w = some (s.record r).num
  /-- Only active sessions are watched. -/
  valid : ∀ {w n}, s.watching.get w = some n → ∃ p, s.numToPlayer.get n = some p
  limit : ∀ {p r}, s.Plays p r → ((s.record r).watchers.card : Int) ≤ max 0 maxWatchers

variable {maxWatchers : Int} {s : SessionState}

theorem Plays.unique {p : Str} {r r' : Nat} (plays : s.Plays p r) (plays' : s.Plays p r') :
    r = r' := by
  rw [Plays, plays, Option.some.injEq] at plays'
  exact plays'

/-- Two players have two records with two numbers. -/
theorem Consistent.apart (consistent : s.Consistent maxWatchers) {p q : Str} {r r' : Nat}
    (plays : s.Plays p r) (plays' : s.Plays q r') (other : p ≠ q) :
    (s.record r).num ≠ (s.record r').num := by
  intro same
  have one := consistent.forth plays
  rw [same, consistent.forth plays', Option.some.injEq] at one
  exact other one.symm

theorem Consistent.byNum (consistent : s.Consistent maxWatchers) {n : Int} {r : Nat}
    (found : s.getSessionByNum n = some r) :
    s.Plays (s.record r).playerId r ∧ (s.record r).num = n := by
  obtain ⟨p, known, plays⟩ := Option.bind_eq_some_iff.mp found
  obtain ⟨r', plays', num⟩ := consistent.back known
  have same := Plays.unique plays plays'
  subst same
  exact ⟨(consistent.owner plays').symm ▸ plays', num⟩

theorem consistent_init : init.Consistent maxWatchers := by
  constructor <;> simp [init, Plays]

theorem Consistent.emit (consistent : s.Consistent maxWatchers) (e : SinkEvent) :
    (s.emit e).Consistent maxWatchers :=
  ⟨consistent.there, consistent.forth, consistent.back, consistent.owner, consistent.below,
    consistent.once, consistent.watch, consistent.valid, consistent.limit⟩

/-! ### A session is added -/

theorem record_addSession (p name : Str) (s : SessionState) (r : Nat) :
    (s.addSession p name).2.record r =
      if r = s.records.length then ⟨s.nextNum, p, name, ∅⟩ else s.record r := by
  change (((s.records ++ [_])[r]?).getD _) = _
  rw [List.getElem?_append]
  split
  · next early => rw [if_neg (Nat.ne_of_lt early)]; rfl
  · split
    · next newest => simp [newest]
    · next late =>
        have beyond : s.records[r]? = none := List.getElem?_eq_none (by omega)
        rw [record, beyond, List.getElem?_eq_none (by simp; omega)]

theorem plays_addSession {p name q : Str} {r : Nat} :
    (s.addSession p name).2.Plays q r ↔
      q = p ∧ r = s.records.length ∨ q ≠ p ∧ s.Plays q r := by
  change (s.sessions.set p s.records.length).get q = some r ↔ _
  rw [Table.get_set]
  split
  · next same => simp [same, eq_comm]
  · next other => simp [other, Plays]

theorem Consistent.addSession (consistent : s.Consistent maxWatchers) {p : Str} (name : Str)
    (vacant : s.sessions.get p = none) : (s.addSession p name).2.Consistent maxWatchers := by
  have old : ∀ {q r}, s.Plays q r → (s.addSession p name).2.record r = s.record r := by
    intro q r plays
    rw [record_addSession, if_neg (Nat.ne_of_lt (consistent.there plays))]
  have unused : ∀ {q r}, s.Plays q r → (s.record r).num ≠ s.nextNum := by
    intro q r plays
    have bound := consistent.there plays
    have listed : s.record r ∈ s.records := by simp [record, bound]
    exact Int.ne_of_lt (consistent.below _ listed)
  have number : ∀ n, (s.addSession p name).2.numToPlayer.get n =
      if n = s.nextNum then some p else s.numToPlayer.get n := fun n => Table.get_set ..
  have new : (s.addSession p name).2.record s.records.length = ⟨s.nextNum, p, name, ∅⟩ := by
    rw [record_addSession, if_pos rfl]
  -- a record that is active afterwards is the new one or was active before
  constructor
  · intro q r plays
    change r < (s.records ++ [_]).length
    rw [List.length_append, List.length_singleton]
    rcases plays_addSession.mp plays with ⟨-, rfl⟩ | ⟨-, plays⟩
    · omega
    · have bound := consistent.there plays
      omega
  · intro q r plays
    rcases plays_addSession.mp plays with ⟨rfl, rfl⟩ | ⟨-, plays⟩
    · rw [new, number, if_pos rfl]
    · rw [old plays, number, if_neg (unused plays)]
      exact consistent.forth plays
  · intro n q known
    rw [number] at known
    split at known
    · next newest =>
        simp only [Option.some.injEq] at known
        subst known
        exact ⟨_, plays_addSession.mpr (.inl ⟨rfl, rfl⟩), by rw [new, newest]⟩
    · obtain ⟨r, plays, num⟩ := consistent.back known
      have other : q ≠ p := by
        rintro rfl
        rw [Plays, vacant] at plays
        cases plays
      exact ⟨r, plays_addSession.mpr (.inr ⟨other, plays⟩), by rw [old plays, num]⟩
  · intro q r plays
    rcases plays_addSession.mp plays with ⟨rfl, rfl⟩ | ⟨-, plays⟩
    · rw [new]
    · rw [old plays]
      exact consistent.owner plays
  · intro record listed
    change record.num < s.nextNum + 1
    rcases List.mem_append.mp listed with earlier | newest
    · have bound := consistent.below _ earlier
      omega
    · rw [List.mem_singleton.mp newest]
      exact Int.lt_succ s.nextNum
  · change ((s.records ++ [_]).map _).Nodup
    rw [List.map_append, List.map_singleton, List.nodup_append]
    refine ⟨consistent.once, List.nodup_singleton _, ?_⟩
    intro n used m newest same
    obtain ⟨record, listed, rfl⟩ := List.mem_map.mp used
    rw [List.mem_singleton.mp newest] at same
    exact absurd same (Int.ne_of_lt (consistent.below record listed))
  · intro q r plays w
    change _ ↔ s.watching.get w = _
    rcases plays_addSession.mp plays with ⟨rfl, rfl⟩ | ⟨-, plays⟩
    · rw [new]
      simp only [Finset.notMem_empty, false_iff]
      intro watches
      obtain ⟨q, known⟩ := consistent.valid watches
      obtain ⟨r, plays, num⟩ := consistent.back known
      exact unused plays num
    · rw [old plays]
      exact consistent.watch plays w
  · intro w n watches
    obtain ⟨q, known⟩ := consistent.valid watches
    rw [number]
    split
    · exact ⟨p, rfl⟩
    · exact ⟨q, known⟩
  · intro q r plays
    rcases plays_addSession.mp plays with ⟨rfl, rfl⟩ | ⟨-, plays⟩
    · rw [new]
      exact Int.le_max_left 0 maxWatchers
    · rw [old plays]
      exact consistent.limit plays

/-! ### A session is removed -/

theorem plays_discard {p q : Str} {r r' : Nat} :
    (s.discard p r).Plays q r' ↔ q ≠ p ∧ s.Plays q r' := by
  change (s.sessions.erase p).get q = some r' ↔ _
  rw [Table.get_erase]
  split
  · next same => simp [same]
  · next other => simp [other, Plays]

@[simp]
theorem record_discard (p : Str) (r r' : Nat) (s : SessionState) :
    (s.discard p r).record r' = s.record r' := rfl

@[simp]
theorem record_removeSession (p : Str) (reason : EndReason) (s : SessionState) (r : Nat) :
    (s.removeSession p reason).2.record r = s.record r := by
  unfold removeSession
  split <;> rfl

theorem Consistent.discard (consistent : s.Consistent maxWatchers) {p : Str} {r : Nat}
    (plays : s.Plays p r) : (s.discard p r).Consistent maxWatchers := by
  have number : ∀ n, (s.discard p r).numToPlayer.get n =
      if n = (s.record r).num then none else s.numToPlayer.get n := fun n => Table.get_erase ..
  have watcher : ∀ w, (s.discard p r).watching.get w =
      if w ∈ (s.record r).watchers then none else s.watching.get w := by
    intro w
    change (s.watching.without _).get w = _
    simp [Table.get_without]
  constructor
  · intro q r' plays'
    exact consistent.there (plays_discard.mp plays').2
  · intro q r' plays'
    obtain ⟨other, plays'⟩ := plays_discard.mp plays'
    rw [record_discard, number, if_neg (consistent.apart plays' plays other)]
    exact consistent.forth plays'
  · intro n q known
    rw [number] at known
    split at known
    · cases known
    · next others =>
        obtain ⟨r', plays', num⟩ := consistent.back known
        have other : q ≠ p := by
          rintro rfl
          exact others (plays'.unique plays ▸ num.symm)
        exact ⟨r', plays_discard.mpr ⟨other, plays'⟩, num⟩
  · intro q r' plays'
    exact consistent.owner (plays_discard.mp plays').2
  · exact consistent.below
  · exact consistent.once
  · intro q r' plays' w
    obtain ⟨other, plays'⟩ := plays_discard.mp plays'
    have before := consistent.watch plays' w
    rw [watcher]
    split
    · next gone =>
        have watches := (consistent.watch plays w).mp gone
        rw [watches, Option.some.injEq] at before
        exact ⟨fun there => absurd (before.mp there).symm (consistent.apart plays' plays other),
          fun absent => by cases absent⟩
    · exact before
  · intro w n watches
    rw [watcher] at watches
    split at watches
    · cases watches
    · next kept =>
        have others : n ≠ (s.record r).num := by
          rintro rfl
          exact kept ((consistent.watch plays w).mpr watches)
        rw [number, if_neg others]
        exact consistent.valid watches
  · intro q r' plays'
    exact consistent.limit (plays_discard.mp plays').2

@[simp]
theorem records_removeSession (p : Str) (reason : EndReason) (s : SessionState) :
    (s.removeSession p reason).2.records = s.records := by
  unfold removeSession
  split <;> rfl

theorem plays_removeSession {p q : Str} {reason : EndReason} {r : Nat} :
    (s.removeSession p reason).2.Plays q r ↔ q ≠ p ∧ s.Plays q r := by
  unfold removeSession
  split
  · next vacant =>
      constructor
      · intro plays
        refine ⟨?_, plays⟩
        rintro rfl
        rw [Plays, vacant] at plays
        cases plays
      · exact And.right
  · next r' _ => exact plays_discard (r := r')

theorem Consistent.removeSession (consistent : s.Consistent maxWatchers) (p : Str)
    (reason : EndReason) : (s.removeSession p reason).2.Consistent maxWatchers := by
  unfold SessionState.removeSession
  split
  · exact consistent
  · next r plays => exact (consistent.discard plays).emit _

/-! ### A watcher comes or goes -/

theorem record_setWatchers (r : Nat) (watchers : Finset Str) (s : SessionState) (r' : Nat) :
    (s.setWatchers r watchers).record r' =
      if r' = r ∧ r < s.records.length then { s.record r with watchers := watchers }
      else s.record r' := by
  change (((s.records.set r _)[r']?).getD _) = _
  rw [List.getElem?_set]
  by_cases same : r = r'
  · subst same
    by_cases bound : r < s.records.length
    · simp [bound]
    · simp [bound, record]
  · rw [if_neg same, if_neg fun both => same both.1.symm]
    rfl

/-- What `add_watcher` and `remove_watcher` change: the watchers of one active
record, and for one watcher what the map says. -/
structure Rewatches (s : SessionState) (r : Nat) (watchers : Finset Str) (t : SessionState) :
    Prop where
  records : t.records = s.records.set r { s.record r with watchers := watchers }
  sessions : t.sessions = s.sessions
  numToPlayer : t.numToPlayer = s.numToPlayer
  nextNum : t.nextNum = s.nextNum

variable {t : SessionState}

theorem Rewatches.record {r : Nat} {watchers : Finset Str} (changed : s.Rewatches r watchers t)
    (bound : r < s.records.length) (r' : Nat) :
    t.record r' = if r' = r then { s.record r with watchers := watchers } else s.record r' := by
  have same : t.record r' = (s.setWatchers r watchers).record r' := by
    simp only [SessionState.record, changed.records]
    rfl
  rw [same, record_setWatchers]
  simp [bound]

theorem Consistent.rewatch (consistent : s.Consistent maxWatchers) {p : Str} {r : Nat}
    (plays : s.Plays p r) {watchers : Finset Str} (changed : s.Rewatches r watchers t)
    (members : ∀ w, w ∈ watchers ↔ t.watching.get w = some (s.record r).num)
    (others : ∀ w n, n ≠ (s.record r).num →
      (t.watching.get w = some n ↔ s.watching.get w = some n))
    (limit : (watchers.card : Int) ≤ max 0 maxWatchers) : t.Consistent maxWatchers := by
  have bound := consistent.there plays
  have same : ∀ {q r'}, t.Plays q r' ↔ s.Plays q r' := by
    intro q r'
    rw [Plays, Plays, changed.sessions]
  have num : ∀ r', (t.record r').num = (s.record r').num := by
    intro r'
    rw [changed.record bound]
    split
    · next here => rw [here]
    · rfl
  have listed : s.record r ∈ s.records := by simp [SessionState.record, bound]
  constructor
  · intro q r' plays'
    rw [changed.records, List.length_set]
    exact consistent.there (same.mp plays')
  · intro q r' plays'
    rw [num, changed.numToPlayer]
    exact consistent.forth (same.mp plays')
  · intro n q known
    rw [changed.numToPlayer] at known
    obtain ⟨r', plays', number⟩ := consistent.back known
    exact ⟨r', same.mpr plays', (num r').trans number⟩
  · intro q r' plays'
    rw [← consistent.owner (same.mp plays'), changed.record bound]
    split
    · next here => rw [here]
    · rfl
  · intro record among
    rw [changed.records] at among
    rw [changed.nextNum]
    rcases List.mem_or_eq_of_mem_set among with old | new
    · exact consistent.below record old
    · subst new
      exact consistent.below (s.record r) listed
  · have nums : t.records.map (·.num) = s.records.map (·.num) := by
      apply List.ext_getElem
      · simp [changed.records]
      · intro i inT inS
        have here : i < s.records.length := by simpa using inS
        have there : i < t.records.length := by simpa using inT
        have one := num i
        simpa [SessionState.record, here, there] using one
    rw [nums]
    exact consistent.once
  · intro q r' plays' w
    rw [num, changed.record bound]
    split
    · next here =>
        subst here
        exact members w
    · next elsewhere =>
        have plays' := same.mp plays'
        have other : q ≠ p := by
          rintro rfl
          exact elsewhere (plays'.unique plays)
        rw [others w _ (consistent.apart plays' plays other)]
        exact consistent.watch plays' w
  · intro w n watches
    rw [changed.numToPlayer]
    by_cases here : n = (s.record r).num
    · exact ⟨p, here ▸ consistent.forth plays⟩
    · exact consistent.valid ((others w n here).mp watches)
  · intro q r' plays'
    rw [changed.record bound]
    split
    · exact limit
    · exact consistent.limit (same.mp plays')

theorem Consistent.addWatcher (consistent : s.Consistent maxWatchers) {w : Str} (n : Int)
    (unoccupied : s.watching.get w = none) :
    (s.addWatcher maxWatchers w n).2.Consistent maxWatchers := by
  unfold SessionState.addWatcher
  split
  · exact consistent
  · next r found =>
      obtain ⟨plays, num⟩ := consistent.byNum found
      split
      · exact consistent
      · next room =>
          generalize after : ({ s with watching := s.watching.set w n } :
            SessionState).setWatchers r (insert w (s.record r).watchers) = t
          have changed : s.Rewatches r (insert w (s.record r).watchers) t := by
            subst after
            exact ⟨rfl, rfl, rfl, rfl⟩
          have watcher : ∀ v, t.watching.get v = if v = w then some n else s.watching.get v := by
            subst after
            exact fun v => Table.get_set ..
          apply consistent.rewatch plays changed
          · intro v
            rw [Finset.mem_insert, watcher, consistent.watch plays v, num]
            split
            · next same => simp [same]
            · next other => simp [other]
          · intro v m elsewhere
            rw [watcher]
            split
            · next same =>
                subst same
                rw [unoccupied, Option.some.injEq]
                exact ⟨fun here => absurd (here ▸ num.symm) elsewhere, fun absent => by cases absent⟩
            · exact Iff.rfl
          · have grown := Finset.card_insert_le w (s.record r).watchers
            omega

theorem Consistent.removeWatcher (consistent : s.Consistent maxWatchers) (w : Str) :
    (s.removeWatcher w).2.Consistent maxWatchers := by
  unfold SessionState.removeWatcher
  split
  · exact consistent
  · next n watches =>
      obtain ⟨q, known⟩ := consistent.valid watches
      obtain ⟨r', plays', -⟩ := consistent.back known
      split
      · next absent =>
          rw [getSessionByNum, known, Option.bind_some, plays'] at absent
          cases absent
      · next r found =>
          obtain ⟨plays, num⟩ := consistent.byNum found
          generalize after : ({ s with watching := s.watching.erase w } :
            SessionState).setWatchers r ((s.record r).watchers.erase w) = t
          have changed : s.Rewatches r ((s.record r).watchers.erase w) t := by
            subst after
            exact ⟨rfl, rfl, rfl, rfl⟩
          have watcher : ∀ v, t.watching.get v = if v = w then none else s.watching.get v := by
            subst after
            exact fun v => Table.get_erase ..
          apply consistent.rewatch plays changed
          · intro v
            rw [Finset.mem_erase, watcher, consistent.watch plays v]
            split
            · next same => simp [same]
            · next other => simp [other]
          · intro v m elsewhere
            rw [watcher]
            split
            · next same =>
                subst same
                rw [watches, Option.some.injEq]
                constructor
                · intro absent
                  cases absent
                · intro here
                  exact absurd (here ▸ num.symm) elsewhere
            · exact Iff.rfl
          · have before := consistent.limit plays
            have shrunk := Finset.card_erase_le (s := (s.record r).watchers) (a := w)
            omega

/-! ### What stays -/

@[simp]
theorem sessions_addWatcher (maxWatchers : Int) (w : Str) (n : Int) (s : SessionState) :
    (s.addWatcher maxWatchers w n).2.sessions = s.sessions := by
  unfold addWatcher
  split
  · rfl
  · split <;> rfl

@[simp]
theorem sessions_removeWatcher (w : Str) (s : SessionState) :
    (s.removeWatcher w).2.sessions = s.sessions := by
  unfold removeWatcher
  split
  · rfl
  · split <;> rfl

@[simp]
theorem length_setWatchers (r : Nat) (watchers : Finset Str) (s : SessionState) :
    (s.setWatchers r watchers).records.length = s.records.length := List.length_set

@[simp]
theorem length_addWatcher (maxWatchers : Int) (w : Str) (n : Int) (s : SessionState) :
    (s.addWatcher maxWatchers w n).2.records.length = s.records.length := by
  unfold addWatcher
  split
  · rfl
  · split
    · rfl
    · exact length_setWatchers ..

@[simp]
theorem length_removeWatcher (w : Str) (s : SessionState) :
    (s.removeWatcher w).2.records.length = s.records.length := by
  unfold removeWatcher
  split
  · rfl
  · split
    · rfl
    · exact length_setWatchers ..

end SessionState

end Zorkbot.Bot
