/-
# The journal of the sessions

The sink is told how sessions start and end, who watches them, and what is said in them. For one
number these events come in one order only, and together they say all that the registry knows: who
plays, who watches, and which numbers are used up.
-/

import Mathlib.Logic.Function.Basic
import Zorkbot.Bot.Filing

namespace Zorkbot.Bot

open Transition

/-! ## What can be told of one number -/

/-- What is known of the session of a number. -/
inductive Known
  | unheard
  | active (record : SessionRecord)
  | ended
  deriving DecidableEq

/-- The number that an event is about. -/
def SinkEvent.num : SinkEvent → Int
  | .sessionStarted record | .sessionEnded record _ | .watchersChanged record => record.num
  | .transcript num .. => num

/-- What is known after an event, where it can come at all. The answer to a game command may come
when the session is over. -/
def Known.learn : Known → SinkEvent → Option Known
  | .unheard, .sessionStarted record => if record.watchers = ∅ then some (.active record) else none
  | .active old, .watchersChanged record =>
      if record = { old with watchers := record.watchers } then some (.active record) else none
  | .active old, .sessionEnded record _ => if record = old then some .ended else none
  | .active old, .transcript .. => some (.active old)
  | .ended, .transcript .. => some .ended
  | _, _ => none

/-- What is known of each number. -/
abbrev Journal := Int → Known

namespace Journal

def blank : Journal := fun _ => .unheard

def enter (journal : Journal) (e : SinkEvent) : Option Journal :=
  ((journal e.num).learn e).map (Function.update journal e.num)

/-- What a list of events tells. -/
def read (events : List SinkEvent) : Option Journal := events.foldlM enter blank

theorem enter_eq {journal next : Journal} {e : SinkEvent}
    (own : (journal e.num).learn e = some (next e.num))
    (others : ∀ n ≠ e.num, next n = journal n) : journal.enter e = some next := by
  rw [enter, own, Option.map_some]
  congr 1
  funext n
  by_cases here : n = e.num
  · rw [here, Function.update_self]
  · rw [Function.update_of_ne here, others n here]

theorem read_append {events : List SinkEvent} {e : SinkEvent} {journal : Journal}
    (before : read events = some journal) : read (events ++ [e]) = journal.enter e := by
  rw [read] at before
  rw [read, List.foldlM_append, before]
  change (journal.enter e >>= pure) = _
  rw [bind_pure]

end Journal

/-! ## What the registry knows -/

namespace SessionState

variable {s t : SessionState} {maxWatchers : Int} {n : Int}

/-- Some record has this number. -/
def Used (s : SessionState) (n : Int) : Prop := n ∈ s.records.map (·.num)

instance (s : SessionState) (n : Int) : Decidable (s.Used n) :=
  inferInstanceAs (Decidable (n ∈ s.records.map (·.num)))

def known (s : SessionState) : Journal := fun n =>
  match s.getSessionByNum n with
  | some r => .active (s.record r)
  | none => if s.Used n then .ended else .unheard

theorem Consistent.byNum_iff (consistent : s.Consistent maxWatchers) {r : Nat} :
    s.getSessionByNum n = some r ↔ ∃ p, s.Plays p r ∧ (s.record r).num = n := by
  constructor
  · intro found
    exact ⟨_, consistent.byNum found⟩
  · rintro ⟨p, plays, rfl⟩
    rw [getSessionByNum, consistent.forth plays]
    exact plays

theorem Consistent.known_active (consistent : s.Consistent maxWatchers) {record : SessionRecord} :
    s.known n = .active record ↔ ∃ p r, s.Plays p r ∧ s.record r = record ∧ record.num = n := by
  unfold known
  constructor
  · intro known
    split at known
    · next r found =>
        simp only [Known.active.injEq] at known
        obtain ⟨p, plays, num⟩ := consistent.byNum_iff.mp found
        exact ⟨p, r, plays, known, known ▸ num⟩
    · split at known <;> cases known
  · rintro ⟨p, r, plays, rfl, num⟩
    rw [consistent.byNum_iff.mpr ⟨p, plays, num⟩]

theorem Consistent.known_plays (consistent : s.Consistent maxWatchers) {p : Str} {r : Nat}
    (plays : s.Plays p r) : s.known (s.record r).num = .active (s.record r) :=
  consistent.known_active.mpr ⟨p, r, plays, rfl, rfl⟩

theorem known_idle (idle : s.getSessionByNum n = none) :
    s.known n = if s.Used n then .ended else .unheard := by rw [known, idle]

theorem used_record {r : Nat} (there : r < s.records.length) : s.Used (s.record r).num := by
  have listed : s.record r ∈ s.records := by simp [record, there]
  exact List.mem_map_of_mem listed

/-- What is known of a number stays if its session does and its record is what it was. -/
theorem known_congr (session : t.getSessionByNum n = s.getSessionByNum n)
    (record : ∀ r, s.getSessionByNum n = some r → t.record r = s.record r)
    (used : t.Used n ↔ s.Used n) : t.known n = s.known n := by
  unfold known
  rw [session]
  split
  · next r found => rw [record r found]
  · simp only [used]

/-! ## What can happen to the registry -/

inductive Moves (s : SessionState) : SessionState → Prop
  | stays : Moves s s
  | adds {p name : Str} (vacant : s.sessions.get p = none) : Moves s (s.addSession p name).2
  | removes {p : Str} {r : Nat} {reason : EndReason} (plays : s.Plays p r) :
      Moves s ((s.discard p r).emit (.sessionEnded (s.record r) reason))
  | rewatches {n : Int} {r : Nat} {watching : Table Str Int} {watchers : Finset Str}
      (found : s.getSessionByNum n = some r) :
      Moves s ({ s with watching := watching }.setWatchers r watchers)
  | forgets {watching : Table Str Int} : Moves s { s with watching := watching }
  | speaks {r : Nat} {name command output : Str} (there : r < s.records.length) :
      Moves s (s.emit (.transcript (s.record r).num name command output))

theorem moves_removeSession (p : Str) (reason : EndReason) (s : SessionState) :
    s.Moves (s.removeSession p reason).2 := by
  unfold removeSession
  split
  · exact .stays
  · next r plays => exact .removes plays

theorem moves_addWatcher (maxWatchers : Int) (w : Str) (n : Int) (s : SessionState) :
    s.Moves (s.addWatcher maxWatchers w n).2 := by
  unfold addWatcher
  split
  · exact .stays
  · next r found =>
      split
      · exact .stays
      · exact .rewatches found

theorem moves_removeWatcher (w : Str) (s : SessionState) : s.Moves (s.removeWatcher w).2 := by
  unfold removeWatcher
  split
  · exact .stays
  · split
    · exact .forgets
    · next r found => exact .rewatches found

theorem nums_setWatchers (r : Nat) (watchers : Finset Str) (s : SessionState) :
    (s.setWatchers r watchers).records.map (·.num) = s.records.map (·.num) := by
  change (s.records.set r _).map (·.num) = _
  rw [List.map_set]
  by_cases there : r < (s.records.map (·.num)).length
  · have own : (s.record r).num = (s.records.map (·.num))[r] := by
      rw [List.length_map] at there
      simp [record, there]
    change (s.records.map (·.num)).set r (s.record r).num = _
    rw [own, List.set_getElem_self]
  · exact List.set_eq_of_length_le (not_lt.mp there)

/-! ## Each move is in the journal -/

theorem Consistent.enter_started (consistent : s.Consistent maxWatchers) {p name : Str}
    (after : (s.addSession p name).2.Consistent maxWatchers) (vacant : s.sessions.get p = none) :
    s.known.enter (.sessionStarted ⟨s.nextNum, p, name, ∅⟩) =
      some (s.addSession p name).2.known := by
  have old : ∀ q r, s.Plays q r → (s.addSession p name).2.record r = s.record r := by
    intro q r plays
    rw [record_addSession, if_neg (Nat.ne_of_lt (consistent.there plays))]
  apply Journal.enter_eq
  · have fresh : ¬ s.Used s.nextNum := by
      intro used
      obtain ⟨record, listed, same⟩ := List.mem_map.mp used
      exact absurd same (Int.ne_of_lt (consistent.below record listed))
    have idle : s.getSessionByNum s.nextNum = none := by
      rw [Option.eq_none_iff_forall_ne_some]
      intro r found
      obtain ⟨q, plays, num⟩ := consistent.byNum_iff.mp found
      exact fresh (num ▸ used_record (consistent.there plays))
    have plays : (s.addSession p name).2.Plays p s.records.length :=
      plays_addSession.mpr (.inl ⟨rfl, rfl⟩)
    have started := after.known_plays plays
    rw [record_addSession, if_pos rfl] at started
    change (s.known s.nextNum).learn _ = some ((s.addSession p name).2.known s.nextNum)
    rw [known_idle idle, if_neg fresh, started]
    rfl
  · intro n other
    change n ≠ s.nextNum at other
    apply known_congr
    · ext r
      rw [after.byNum_iff, consistent.byNum_iff]
      constructor
      · rintro ⟨q, plays, num⟩
        rcases plays_addSession.mp plays with ⟨-, rfl⟩ | ⟨-, plays⟩
        · rw [record_addSession, if_pos rfl] at num
          exact absurd num.symm other
        · exact ⟨q, plays, old q r plays ▸ num⟩
      · rintro ⟨q, plays, num⟩
        refine ⟨q, plays_addSession.mpr (.inr ⟨?_, plays⟩), (old q r plays).symm ▸ num⟩
        rintro rfl
        rw [Plays, vacant] at plays
        cases plays
    · intro r found
      obtain ⟨q, plays, -⟩ := consistent.byNum_iff.mp found
      exact old q r plays
    · change n ∈ (s.records ++ [_]).map _ ↔ _
      rw [List.map_append, List.map_singleton, List.mem_append, List.mem_singleton]
      exact or_iff_left other

theorem Consistent.enter_ended (consistent : s.Consistent maxWatchers) {p : Str} {r : Nat}
    (plays : s.Plays p r) (reason : EndReason) :
    s.known.enter (.sessionEnded (s.record r) reason) = some (s.discard p r).known := by
  have after := consistent.discard plays
  apply Journal.enter_eq
  · have idle : (s.discard p r).getSessionByNum (s.record r).num = none := by
      change ((s.numToPlayer.erase (s.record r).num).get _).bind _ = none
      rw [Table.get_erase_self]
      rfl
    have used : (s.discard p r).Used (s.record r).num :=
      used_record (s := s) (consistent.there plays)
    change (s.known (s.record r).num).learn _ = some ((s.discard p r).known (s.record r).num)
    rw [consistent.known_plays plays, known_idle idle, if_pos used]
    exact if_pos rfl
  · intro n other
    change n ≠ (s.record r).num at other
    apply known_congr
    · ext r'
      rw [after.byNum_iff, consistent.byNum_iff]
      constructor
      · rintro ⟨q, plays', num⟩
        exact ⟨q, (plays_discard.mp plays').2, num⟩
      · rintro ⟨q, plays', num⟩
        refine ⟨q, plays_discard.mpr ⟨?_, plays'⟩, num⟩
        rintro rfl
        exact other (plays'.unique plays ▸ num.symm)
    · exact fun _ _ => rfl
    · exact Iff.rfl

theorem Consistent.enter_rewatched (consistent : s.Consistent maxWatchers) {r : Nat}
    {watching : Table Str Int} {watchers : Finset Str}
    (after : ({ s with watching := watching }.setWatchers r watchers).Consistent maxWatchers)
    (found : s.getSessionByNum n = some r) :
    s.known.enter (.watchersChanged { s.record r with watchers := watchers }) =
      some ({ s with watching := watching }.setWatchers r watchers).known := by
  obtain ⟨plays, num⟩ := consistent.byNum found
  have bound := consistent.there plays
  have record : ∀ r', ({ s with watching := watching }.setWatchers r watchers).record r' =
      if r' = r then { s.record r with watchers := watchers } else s.record r' := by
    intro r'
    rw [record_setWatchers]
    change (if r' = r ∧ r < s.records.length then _ else _) = _
    simp only [bound, and_true]
    rfl
  apply Journal.enter_eq
  · have now := after.known_plays (show SessionState.Plays _ (s.record r).playerId r from plays)
    rw [record, if_pos rfl] at now
    change (s.known (s.record r).num).learn _ = some (known _ (s.record r).num)
    rw [consistent.known_plays plays, now]
    exact if_pos rfl
  · intro m other
    change m ≠ (s.record r).num at other
    apply known_congr
    · rfl
    · intro r' found'
      rw [record, if_neg]
      rintro rfl
      exact other (consistent.byNum found').2.symm
    · rw [Used, nums_setWatchers]
      rfl

theorem enter_spoken {r : Nat} (there : r < s.records.length) (name command output : Str) :
    s.known.enter (.transcript (s.record r).num name command output) = some s.known := by
  apply Journal.enter_eq
  · change (s.known (s.record r).num).learn _ = some (s.known (s.record r).num)
    cases found : s.getSessionByNum (s.record r).num with
    | some r' =>
        have active : s.known (s.record r).num = .active (s.record r') := by rw [known, found]
        rw [active]
        rfl
    | none =>
        rw [known_idle found, if_pos (used_record there)]
        rfl
  · exact fun _ _ => rfl

/-- One move is one entry of the journal, or none. -/
theorem Moves.learn (consistent : s.Consistent maxWatchers) (after : t.Consistent maxWatchers)
    (moves : s.Moves t) :
    (t.sink = s.sink ∧ t.known = s.known) ∨
      ∃ e, t.sink = s.sink ++ [e] ∧ s.known.enter e = some t.known := by
  cases moves with
  | stays | forgets => exact .inl ⟨rfl, rfl⟩
  | adds vacant => exact .inr ⟨_, rfl, consistent.enter_started after vacant⟩
  | removes plays => exact .inr ⟨_, rfl, consistent.enter_ended plays _⟩
  | rewatches found => exact .inr ⟨_, rfl, consistent.enter_rewatched after found⟩
  | speaks there => exact .inr ⟨_, rfl, enter_spoken there _ _ _⟩

/-- The numbers are given out one after the other, from 1 on. -/
structure Numbered (s : SessionState) : Prop where
  used : ∀ n, s.Used n ↔ 1 ≤ n ∧ n < s.nextNum
  positive : 1 ≤ s.nextNum

theorem numbered_init : init.Numbered := by
  refine ⟨fun n => ?_, Int.le_refl 1⟩
  simp only [Used, init, List.map_nil, List.not_mem_nil, false_iff]
  omega

theorem Numbered.move (numbered : s.Numbered) (moves : s.Moves t) : t.Numbered := by
  obtain ⟨used, positive⟩ := numbered
  cases moves with
  | @adds p name =>
      have next : (s.addSession p name).2.nextNum = s.nextNum + 1 := rfl
      refine ⟨fun n => ?_, by omega⟩
      rw [next]
      change n ∈ (s.records ++ [_]).map _ ↔ _
      rw [List.map_append, List.map_singleton, List.mem_append, List.mem_singleton]
      have old := used n
      rw [Used] at old
      rw [old]
      change _ ∨ n = s.nextNum ↔ _
      omega
  | rewatches =>
      refine ⟨fun m => ?_, positive⟩
      rw [Used, nums_setWatchers]
      exact used m
  | _ => exact ⟨used, positive⟩

end SessionState

/-- What was told says who plays, who watches, and which sessions there were. -/
structure Journal.Tells (journal : Journal) (s : SessionState) : Prop where
  playing : ∀ p record, (∃ r, s.getSession p = some r ∧ s.record r = record) ↔
    record.playerId = p ∧ journal record.num = .active record
  watching : ∀ w n, s.watchingSession w = some n ↔
    ∃ record, journal n = .active record ∧ w ∈ record.watchers
  ended : ∀ n, journal n = .ended ↔ s.Used n ∧ s.getSessionByNum n = none
  unheard : ∀ n, journal n = .unheard ↔ n < 1 ∨ s.nextNum ≤ n

namespace SessionState

variable {s : SessionState} {maxWatchers : Int}

theorem Consistent.tells (consistent : s.Consistent maxWatchers)
    (numbered : s.Numbered) : s.known.Tells s := by
  have heard : ∀ {n r}, s.getSessionByNum n = some r → s.known n = .active (s.record r) ∧ s.Used n := by
    intro n r found
    obtain ⟨p, plays, num⟩ := consistent.byNum_iff.mp found
    exact ⟨num ▸ consistent.known_plays plays, num ▸ used_record (consistent.there plays)⟩
  constructor
  · intro p record
    rw [consistent.known_active]
    constructor
    · rintro ⟨r, plays, rfl⟩
      exact ⟨consistent.owner plays, p, r, plays, rfl, rfl⟩
    · rintro ⟨rfl, q, r, plays, rfl, -⟩
      exact ⟨r, (consistent.owner plays).symm ▸ plays, rfl⟩
  · intro w n
    constructor
    · intro watches
      obtain ⟨p, known⟩ := consistent.valid watches
      obtain ⟨r, plays, rfl⟩ := consistent.back known
      exact ⟨s.record r, consistent.known_plays plays, (consistent.watch plays w).mpr watches⟩
    · rintro ⟨record, active, member⟩
      obtain ⟨p, r, plays, rfl, rfl⟩ := consistent.known_active.mp active
      exact (consistent.watch plays w).mp member
  · intro n
    cases found : s.getSessionByNum n with
    | some r => simp [(heard found).1]
    | none =>
        rw [known_idle found]
        split <;> simp_all
  · intro n
    have unused : ¬ s.Used n ↔ n < 1 ∨ s.nextNum ≤ n := by
      rw [numbered.used]
      omega
    rw [← unused]
    cases found : s.getSessionByNum n with
    | some r => simp [heard found]
    | none =>
        rw [known_idle found]
        split <;> simp_all

end SessionState

/-! ## What the bot does to the registry -/

section

variable {setup : Setup} {i : Item} {s : SessionState} {a : Point} {resume : Resume} {turn : Turn}

/-- Where a handler awaits the answer to a game command, only that lets it go on. -/
theorem block_playing {r : Nat} {command : Str}
    (taken : block setup i s (.playing r command) resume = some turn) :
    ∃ answer, resume = .answered answer ∧ turn = gameAnswered setup i s r command answer := by
  cases resume with
  | called | advertised | sent => simp [block, sent] at taken
  | answered answer => exact ⟨answer, rfl, (Option.some.inj taken).symm⟩

theorem moves_gameAnswered {r : Nat} (there : r < s.records.length) (command : Str)
    (answer : Answer) : s.Moves (gameAnswered setup i s r command answer).state := by
  unfold gameAnswered
  split
  · exact SessionState.moves_removeSession _ _ s
  · exact .stays
  · exact .stays
  · split
    · exact .stays
    · dsimp only
      split <;> exact .speaks there

/-- Every block of a handler moves the registry at most once. -/
theorem moves_block (vacant : a.adding = true → s.sessions.get i.player = none)
    (filed : ZorkBot.Filed i a s) (taken : block setup i s a resume = some turn) :
    s.Moves turn.state := by
  by_cases playing : ∃ r command, a = .playing r command
  · obtain ⟨r, command, rfl⟩ := playing
    obtain ⟨answer, rfl, rfl⟩ := block_playing taken
    exact moves_gameAnswered filed command answer
  · cases blocks_of_block taken with
    | watches => exact SessionState.moves_addWatcher _ _ _ s
    | unwatches => exact SessionState.moves_removeWatcher _ s
    | adds asked =>
        apply SessionState.Moves.adds (vacant _)
        rcases asked with rfl | rfl <;> rfl
    | ends | forces | resets | vanishes => exact SessionState.moves_removeSession _ _ s
    | records | answers => exact absurd ⟨_, _, rfl⟩ playing
    | _ => exact .stays

end

namespace ZorkBot

variable {setup : Setup} {b c : ZorkBot}

/-- What every move of a consistent registry keeps, every run of the bot keeps. -/
theorem registry_rule {motive : SessionState → Prop} (initial : motive .init)
    (moved : ∀ s t : SessionState, s.Consistent setup.maxWatchers → t.Consistent setup.maxWatchers →
      s.Moves t → motive s → motive t)
    {guard : ZorkBot → Act → Prop} (reached : (zorkbot setup).Reachable guard b) :
    motive b.state := by
  apply reached.invariant (motive := fun b => motive b.state) initial
  intro b a c prior holds _ taken
  have sound := sound prior
  by_cases runs : ∃ t resume, a = .run t resume
  · obtain ⟨t, resume, rfl⟩ := runs
    have after := (sound_step (a := .run t resume) sound taken).registry
    simp only [zorkbot, step] at taken
    split at taken
    · next i there =>
        obtain ⟨turn, blocked, rfl⟩ := Option.map_eq_some_iff.mp taken
        exact moved _ _ sound.registry after
          (moves_block (sound.vacant t i there) (filed prior t i there) blocked) holds
    · cases taken
  · have both : c.state.Consistent setup.maxWatchers ∧ motive c.state := by
      apply registry_step (motive := fun s => s.Consistent setup.maxWatchers ∧ motive s)
        ⟨sound.registry, holds⟩ _ _ taken
      · exact fun t i resume turn same => absurd ⟨t, resume, same⟩ runs
      · rintro s p ⟨consistent, holds⟩
        have after := consistent.removeSession p .serverSide
        exact ⟨after, moved _ _ consistent after (SessionState.moves_removeSession _ _ s) holds⟩
    exact both.2

theorem read_moves {maxWatchers : Int} (s t : SessionState) (consistent : s.Consistent maxWatchers)
    (after : t.Consistent maxWatchers) (moves : s.Moves t)
    (told : Journal.read s.sink = some s.known) : Journal.read t.sink = some t.known := by
  rcases moves.learn consistent after with ⟨sink, known⟩ | ⟨e, sink, entered⟩
  · rw [sink, known]
    exact told
  · rw [sink, Journal.read_append told]
    exact entered

/-- The journal tells what the registry knows. -/
theorem read_sink {guard : ZorkBot → Act → Prop} (reached : (zorkbot setup).Reachable guard b) :
    Journal.read b.state.sink = some b.state.known :=
  registry_rule (motive := fun s => Journal.read s.sink = some s.known) rfl read_moves reached

theorem numbered {guard : ZorkBot → Act → Prop} (reached : (zorkbot setup).Reachable guard b) :
    b.state.Numbered :=
  registry_rule (motive := SessionState.Numbered) SessionState.numbered_init
    (fun _ _ _ _ moves numbered => numbered.move moves) reached

/-- In every state of every run, what the sink was told until then can be read as a journal of
sessions that start, change and end, each number in turn, and the journal says who plays which
session, who watches which, and which are over. -/
theorem sink_tells (reached : (zorkbot setup).Reachable (fun _ _ => True) b) :
    ∃ journal, Journal.read b.state.sink = some journal ∧ journal.Tells b.state :=
  ⟨b.state.known, read_sink reached, (sound reached).registry.tells (numbered reached)⟩

theorem sink_tells_watched :
    ∃ b : ZorkBot, b.state.watchingSession bob = some 1 ∧
      ∃ journal, Journal.read b.state.sink = some journal ∧ journal.Tells b.state := by
  obtain ⟨b, reached, watched⟩ := System.reaches (zorkbot (small 2)) (fun _ _ => True)
    (fun b => b.state.watchingSession bob = some 1) (aliceStarts 0 ++ sends bob "watch" "1" 1)
    (fun _ _ _ => trivial) (by decide)
  exact ⟨b, watched, sink_tells (reached.mono fun _ _ _ => trivial)⟩

end ZorkBot

end Zorkbot.Bot
