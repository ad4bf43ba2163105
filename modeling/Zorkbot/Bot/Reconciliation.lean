/-
# What a reconciliation removes

The poller compares the registry with a list that the game service made some time
ago. A session that was live when it was added, and has been since, is on every
list that was made after that; so it can only be missing from one that was made
before, while the player's `!start` or `!reset` was under way. `reconcile_spares_iff`
says that this is all that can go wrong.
-/

import Zorkbot.Bot.Consistency

namespace Zorkbot.Bot

open Transition

section

variable {setup : Setup} {i : Item} {s : SessionState} {a : Point} {resume : Resume} {turn : Turn}

/-- An active record is an old one or the one that the block has added. -/
theorem Blocks.plays_old (blocks : Blocks setup i s a resume turn) {p : Str} {r : Nat}
    (plays : turn.state.Plays p r) (old : r < s.records.length) : s.Plays p r := by
  cases blocks with
  | watches | unwatches => simpa [SessionState.Plays] using plays
  | adds =>
      rcases SessionState.plays_addSession.mp plays with ⟨-, rfl⟩ | ⟨-, plays⟩
      · exact absurd old (Nat.lt_irrefl _)
      · exact plays
  | ends | forces | resets | vanishes => exact (SessionState.plays_removeSession.mp plays).2
  | _ => exact plays

theorem Blocks.records_grow (blocks : Blocks setup i s a resume turn) :
    s.records.length ≤ turn.state.records.length := by
  cases blocks with
  | adds => simp [SessionState.addSession, SessionState.emit]
  | watches | unwatches | ends | forces | resets | vanishes => simp
  | _ => exact Nat.le_refl _

end

namespace ZorkBot

variable {setup : Setup} {b c : ZorkBot}

/-! ## The effect of a reconciliation -/

@[simp]
theorem record_reconcileOne (players : List Str) (b : ZorkBot) (r r' : Nat) :
    (b.reconcileOne players r).state.record r' = b.state.record r' := by
  rcases state_reconcileOne players b r with kept | removed
  · rw [kept]
  · rw [removed, SessionState.record_removeSession]

theorem plays_reconcileOne {players : List Str} {r r' : Nat} {p : Str} :
    (b.reconcileOne players r).state.Plays p r' ↔
      b.state.Plays p r' ∧ (p ∈ players ∨ (b.state.record r).playerId ≠ p) := by
  unfold reconcileOne
  split
  · next listed =>
      constructor
      · intro plays
        refine ⟨plays, ?_⟩
        by_cases same : (b.state.record r).playerId = p
        · exact .inl (same ▸ listed)
        · exact .inr same
      · exact And.left
  · next missing =>
      rw [SessionState.plays_removeSession]
      constructor
      · rintro ⟨other, plays⟩
        exact ⟨plays, .inr other.symm⟩
      · rintro ⟨plays, listed | other⟩
        · refine ⟨?_, plays⟩
          rintro rfl
          exact missing listed
        · exact ⟨other.symm, plays⟩

theorem plays_foldl {players : List Str} {p : Str} {r : Nat} (line : List Nat) (b : ZorkBot) :
    (line.foldl (reconcileOne players) b).state.Plays p r ↔
      b.state.Plays p r ∧
        (p ∈ players ∨ ∀ r' ∈ line, (b.state.record r').playerId ≠ p) := by
  induction line generalizing b with
  | nil => simp
  | cons r' rest ih =>
      rw [List.foldl_cons, ih, plays_reconcileOne]
      simp only [record_reconcileOne, List.forall_mem_cons]
      tauto

/-- Exactly the sessions of the players on the list stay. -/
theorem plays_reconcile (consistent : b.state.Consistent setup.maxWatchers) {players : List Str}
    {p : Str} {r : Nat} :
    (b.reconcile players).state.Plays p r ↔ b.state.Plays p r ∧ p ∈ players := by
  rw [reconcile, plays_foldl]
  constructor
  · rintro ⟨plays, listed | others⟩
    · exact ⟨plays, listed⟩
    · have among : r ∈ b.state.allSessions := SessionState.mem_allSessions.mpr ⟨p, plays⟩
      exact absurd (consistent.owner plays) (others r among)
  · rintro ⟨plays, listed⟩
    exact ⟨plays, .inl listed⟩

/-! ## What a list is worth -/

/-- The game service has had the session since before its record was added. -/
def Alive (b : ZorkBot) (p : Str) (r : Nat) : Prop :=
  ∃ n, b.born.get r = some n ∧ b.live.get p = some n

structure Dated (b : ZorkBot) : Prop where
  fresh : ∀ {p n}, b.live.get p = some n → n < b.births
  early : ∀ {r n}, b.born.get r = some n → n < b.births
  earlier : ∀ {players n}, b.poll = .listed players n → n ≤ b.state.records.length
  /-- A live session that was in the registry when the list was made is on it. -/
  listed : ∀ {players n}, b.poll = .listed players n → ∀ {p r}, b.state.Plays p r → r < n →
    b.Alive p r → p ∈ players

theorem dated_init : init.Dated := by
  constructor <;> simp [init]

/-- Sessions may leave the registry. -/
theorem Dated.shrink (dated : b.Dated) (live : c.live = b.live) (births : c.births = b.births)
    (born : c.born = b.born) (poll : c.poll = b.poll ∨ c.poll = .sleeping ∨ c.poll = .asking)
    (records : b.state.records.length ≤ c.state.records.length)
    (plays : ∀ {p r}, c.state.Plays p r → b.state.Plays p r) : c.Dated := by
  have before : ∀ {players n}, c.poll = .listed players n → b.poll = .listed players n := by
    intro players n now
    rcases poll with same | asleep | asking
    · exact same ▸ now
    · rw [asleep] at now
      cases now
    · rw [asking] at now
      cases now
  constructor
  · intro p n there
    rw [births]
    exact dated.fresh (live ▸ there)
  · intro r n there
    rw [births]
    exact dated.early (born ▸ there)
  · intro players n now
    exact Nat.le_trans (dated.earlier (before now)) records
  · intro players n now p r there bound alive
    rw [Alive, born, live] at alive
    exact dated.listed (before now) (plays there) bound alive

theorem born_leave {t : Nat} {p : Str} {turn : Turn} {r n : Nat}
    (there : (b.leave t p turn).born.get r = some n) :
    b.born.get r = some n ∨ r = b.state.records.length ∧ b.live.get p = some n := by
  change (b.note p turn.state).get r = some n at there
  unfold note at there
  split at there
  · next m live =>
      split at there
      · rw [Table.get_set] at there
        split at there
        · next newest => exact .inr ⟨newest, there ▸ live⟩
        · exact .inl there
      · exact .inl there
  · exact .inl there

theorem dated_leave (dated : b.Dated) {t : Nat} {i : Item} {a : Point} {resume : Resume}
    {turn : Turn} (blocks : Blocks setup i b.state a resume turn) :
    (b.leave t i.player turn).Dated := by
  constructor
  · exact dated.fresh
  · intro r n there
    rcases born_leave there with before | ⟨-, live⟩
    · exact dated.early before
    · exact dated.fresh live
  · intro players n now
    exact Nat.le_trans (dated.earlier now) blocks.records_grow
  · rintro players n now p r there bound ⟨m, born, live⟩
    -- a record from before the list is not the one that was added just now
    have old : r < b.state.records.length := Nat.lt_of_lt_of_le bound (dated.earlier now)
    rcases born_leave born with before | ⟨newest, -⟩
    · exact dated.listed now (blocks.plays_old there old) bound ⟨m, before, live⟩
    · exact absurd newest (Nat.ne_of_lt old)

theorem dated_reconcile (dated : b.Dated) (players : List Str) : (b.reconcile players).Dated := by
  apply reconcile_induction
  · exact dated.shrink rfl rfl rfl (.inr (.inl rfl)) (Nat.le_refl _) id
  · intro b r dated
    have shrunk : ∀ {p r'}, (b.reconcileOne players r).state.Plays p r' → b.state.Plays p r' :=
      fun plays => (plays_reconcileOne.mp plays).1
    have records : (b.reconcileOne players r).state.records = b.state.records := by
      rcases state_reconcileOne players b r with kept | removed
      · rw [kept]
      · rw [removed, SessionState.records_removeSession]
    generalize after : b.reconcileOne players r = c at shrunk records
    unfold reconcileOne at after
    split at after <;> subst after
    · exact dated
    · exact dated.shrink rfl rfl rfl (.inl rfl) (Nat.le_of_eq (congrArg _ records.symm)) shrunk

theorem dated_step (dated : b.Dated) {a : Act} (taken : b.step setup a = some c) : c.Dated := by
  cases zorkbot_steps taken with
  | runs _ blocks => exact dated_leave dated blocks
  | reconciles => exact dated_reconcile dated _
  | asks => exact dated.shrink rfl rfl rfl (.inr (.inr rfl)) (Nat.le_refl _) id
  | loses => exact dated.shrink rfl rfl rfl (.inr (.inl rfl)) (Nat.le_refl _) id
  | lists =>
      constructor
      · exact dated.fresh
      · exact dated.early
      · rintro players n now
        cases now
        exact Nat.le_refl _
      · rintro players n now p r - - ⟨m, -, live⟩
        cases now
        exact Table.mem_keys_iff.mpr ⟨m, live⟩
  | @gains p dead =>
      constructor
      · intro q n there
        change (b.live.set p b.births).get q = some n at there
        change n < b.births + 1
        rw [Table.get_set] at there
        split at there
        · simp only [Option.some.injEq] at there
          omega
        · exact Nat.lt_succ_of_lt (dated.fresh there)
      · intro r n there
        exact Nat.lt_succ_of_lt (dated.early there)
      · exact dated.earlier
      · rintro players n now q r there bound ⟨m, born, live⟩
        change (b.live.set p b.births).get q = some m at live
        rw [Table.get_set] at live
        split at live
        · -- what the service starts now was not live when a record was added
          simp only [Option.some.injEq] at live
          exact absurd (dated.early born) (by omega)
        · exact dated.listed now there bound ⟨m, born, live⟩
  | @misses p =>
      have kept : ∀ {q n}, (b.live.erase p).get q = some n → b.live.get q = some n := by
        intro q n there
        rw [Table.get_erase] at there
        split at there
        · cases there
        · exact there
      constructor
      · exact fun there => dated.fresh (kept there)
      · exact dated.early
      · exact dated.earlier
      · rintro players n now q r there bound ⟨m, born, live⟩
        exact dated.listed now there bound ⟨m, born, kept live⟩
  | opens _ onto | closes _ _ onto =>
      obtain ⟨letters, rfl⟩ := fanTo_eq onto
      exact dated.shrink rfl rfl rfl (.inl rfl) (Nat.le_refl _) id
  | _ => exact dated.shrink rfl rfl rfl (.inl rfl) (Nat.le_refl _) id

/-- In every state of every run, a reconciliation keeps every live session if and only
if those that were added after its list was made are on it. -/
theorem reconcile_spares_iff (reached : (zorkbot setup).Reachable (fun _ _ => True) b)
    {players : List Str} {n : Nat} (listed : b.poll = .listed players n)
    (taken : b.step setup .reconcile = some c) :
    (∀ p r, b.state.Plays p r → b.Alive p r → c.state.Plays p r) ↔
      ∀ p r, b.state.Plays p r → b.Alive p r → n ≤ r → p ∈ players := by
  have dated : b.Dated := by
    apply reached.invariant (motive := Dated)
    · exact dated_init
    · intro b a c _ dated _ taken
      exact dated_step dated taken
  have consistent := (sound reached).registry
  simp only [step, listed, Option.some.injEq] at taken
  subst taken
  simp only [plays_reconcile consistent]
  constructor
  · intro spared p r plays alive _
    exact (spared p r plays alive).2
  · intro added p r plays alive
    refine ⟨plays, ?_⟩
    rcases Nat.lt_or_ge r n with old | new
    · exact dated.listed listed plays old alive
    · exact added p r plays alive new

theorem reconcile_spares_iff_listed :
    ∃ b c : ZorkBot, b.state.Plays alice 0 ∧ b.Alive alice 0 ∧
      b.step (small 2) .reconcile = some c ∧ c.state.Plays alice 0 := by
  obtain ⟨b, reached, listed, plays, born, live, late⟩ := System.reaches (zorkbot (small 2))
    (fun _ _ => True)
    (fun b => b.poll = .listed [alice] 1 ∧ b.state.sessions.get alice = some 0 ∧
      b.born.get 0 = some 0 ∧ b.live.get alice = some 0 ∧
      ∀ p r, b.state.sessions.get p = some r → 1 ≤ r → p ∈ [alice])
    (aliceStarts 0 ++ [Act.ask, .list]) (fun _ _ _ => trivial) (by decide)
  have taken : b.step (small 2) .reconcile = some (b.reconcile [alice]) := by
    simp only [step, listed]
  refine ⟨b, _, plays, ⟨0, born, live⟩, taken, ?_⟩
  apply (reconcile_spares_iff (reached.mono fun _ _ _ => trivial) listed taken).mpr
  · exact fun p r plays _ bound => late p r plays bound
  · exact plays
  · exact ⟨0, born, live⟩

/-- The game service lists its players while Alice's `!start` is on its way to it. -/
def aliceMissed : List Act :=
  sends alice "start" "" 0 ++
    [Act.run 0 .advertised, .ask, .list, .serviceStarts alice, .run 0 granted]

theorem reconcile_drops_live_session :
    ∃ b c, (zorkbot (small 2)).Reachable (fun _ _ => True) b ∧ b.state.Plays alice 0 ∧
      b.Alive alice 0 ∧ b.step (small 2) .reconcile = some c ∧ ¬ c.state.Plays alice 0 := by
  obtain ⟨b, reached, listed, plays, born, live, gone⟩ := System.reaches (zorkbot (small 2))
    (fun _ _ => True)
    (fun b => b.poll = .listed [] 0 ∧ b.state.sessions.get alice = some 0 ∧
      b.born.get 0 = some 0 ∧ b.live.get alice = some 0 ∧
      (b.reconcile []).state.sessions.get alice = none)
    aliceMissed (fun _ _ _ => trivial) (by decide)
  refine ⟨b, b.reconcile [], reached.mono fun _ _ _ => trivial, plays, ⟨0, born, live⟩, ?_, ?_⟩
  · simp only [step, listed]
  · rw [SessionState.Plays, gone]
    rintro ⟨⟩

end ZorkBot

end Zorkbot.Bot
