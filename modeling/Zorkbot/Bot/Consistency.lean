/-
# The registry stays consistent

A handler adds a session after a wait, relying on what it saw before: that its
player had none. It is still so, since a player has one worker and nobody else adds a
session for the player. With that, every operation of the registry finds what its
callers owe it.
-/

import Zorkbot.Bot.GateLanes
import Zorkbot.Bot.Tasks

namespace Zorkbot.Bot

open Transition

/-! ## The steps of the bot -/

namespace Gate

variable {s t : Gate}

theorem task_turn (n : Nat) (p : Str) (s : Gate) {m : Nat} (other : m ≠ n) :
    (s.turn n p).workers.task m = s.workers.task m := by
  have moved : ∀ w, (s.workers.move n w).task m = s.workers.task m := by
    intro w
    rw [Roster.task_move, if_neg other.symm]
  unfold turn
  split
  · exact moved _
  · exact moved _

/-- A worker that begins or finishes leaves the others where they are. -/
theorem task_of_step {n : Nat} {a : Act} (own : a = .begin n ∨ ∃ outcome, a = .finish n outcome)
    (taken : s.step a = some t) {m : Nat} (other : m ≠ n) :
    t.workers.task m = s.workers.task m := by
  rcases own with rfl | ⟨outcome, rfl⟩
  · simp only [step] at taken
    split at taken
    · simp only [Option.some.injEq] at taken
      exact taken ▸ task_turn n _ s other
    · cases taken
  · simp only [step] at taken
    split at taken
    · simp only [Option.some.injEq] at taken
      exact taken ▸ task_turn n _ (s.ended _) other
    · cases taken

/-- A message finds every worker where it was, and a worker that it creates is not in
a handler. -/
theorem task_enqueue {ctx : Context} {command restArgs : Str} {n : Nat} {p : Str} {i : Item} :
    (s.enqueue ctx command restArgs).1.workers.task n = some (p, .handling i) ↔
      s.workers.task n = some (p, .handling i) := by
  simp only [enqueue]
  split
  · exact Iff.rfl
  · split
    · exact Iff.rfl
    · split
      · exact Iff.rfl
      · change (s.workers.hire _ Worker.created).task n = _ ↔ _
        rw [Roster.task_hire]
        split
        · next newest =>
            have missing : s.workers.task n = none := by
              rw [Roster.task, newest]
              exact List.getElem?_eq_none (Nat.le_refl _)
            simp [missing]
        · exact Iff.rfl

theorem created_of_begin {n : Nat} (taken : s.step (.begin n) = some t) :
    ∃ p, s.workers.task n = some (p, .created) := by
  simp only [step] at taken
  split at taken
  · next p there => exact ⟨p, there⟩
  · cases taken

end Gate

namespace ZorkBot

variable {setup : Setup} {b c : ZorkBot}

theorem handling_iff {t : Nat} {i : Item} :
    b.handling t = some i ↔ ∃ p, b.gate.workers.task t = some (p, .handling i) := by
  unfold handling
  cases b.gate.workers.task t with
  | none => simp
  | some task =>
      obtain ⟨p, w⟩ := task
      cases w <;> simp [Worker.item]

/-- Two handlers at work are those of two players. -/
theorem handling_unique (sound : b.gate.Sound) {t t' : Nat} {i i' : Item}
    (first : b.handling t = some i) (second : b.handling t' = some i')
    (same : i.player = i'.player) : t = t' := by
  obtain ⟨p, there⟩ := handling_iff.mp first
  obtain ⟨p', there'⟩ := handling_iff.mp second
  rw [sound.own there, sound.own there'] at same
  subst same
  exact sound.staffed.unique there (by simp) there' (by simp)

/-- What one step of the bot can do. -/
inductive Steps (setup : Setup) (b : ZorkBot) : Act → ZorkBot → Prop
  | arrives {ctx : Context} {command restArgs : Str} : Steps setup b (.dispatch ctx command restArgs)
      { b with gate := (b.gate.enqueue ctx command restArgs).1 }
  | begins {t : Nat} {g : Gate} (stepped : b.gate.step (.begin t) = some g) :
      Steps setup b (.begin t) (b.turnTo t g)
  | finishes {t : Nat} {outcome : Gate.Outcome} {g : Gate} (past : b.point t = .past outcome)
      (stepped : b.gate.step (.finish t outcome) = some g) :
      Steps setup b (.finish t) (b.turnTo t g)
  | runs {t : Nat} {i : Item} {resume : Resume} {turn : Turn} (there : b.handling t = some i)
      (blocks : Blocks setup i b.state (b.point t) resume turn) :
      Steps setup b (.run t resume) (b.leave t i.player turn)
  | asks (asleep : b.poll = .sleeping) : Steps setup b .ask { b with poll := .asking }
  | lists (asked : b.poll = .asking) :
      Steps setup b .list { b with poll := .listed b.live.keys b.state.records.length }
  | loses : Steps setup b .lose { b with poll := .sleeping }
  | reconciles {players : List Str} {n : Nat} (listed : b.poll = .listed players n) :
      Steps setup b .reconcile (b.reconcile players)
  | opens {n : Nat} {order : List Str} {f : Fanout Fan} {c : ZorkBot}
      (stepped : b.fanout.step (.begin n) = some f) (onto : b.fanTo n order f = some c) :
      Steps setup b (.open_ n order) c
  | delivers {n q : Nat} {raises : Bool} {k : Int} {j : Job Fan} {letter : Str × Str}
      {rest : List (Str × Str)} (there : b.fanout.workers.task n = some (k, .running q j))
      (unsent : b.unsent n = letter :: rest) :
      Steps setup b (.deliver n raises)
        { b with
          letters := b.letters.set n (if raises then [] else rest)
          sent := b.sent ++ [⟨letter.1, letter.2, j⟩] }
  | closes {n : Nat} {outcome : Fanout.Outcome} {order : List Str} {f : Fanout Fan} {c : ZorkBot}
      (empty : b.unsent n = []) (stepped : b.fanout.step (.finish n outcome) = some f)
      (onto : b.fanTo n order f = some c) : Steps setup b (.close n outcome order) c
  | settles {n : Nat} {f : Fanout Fan} (stepped : b.fanout.step (.callback n) = some f) :
      Steps setup b (.settle n) { b with fanout := f }
  | gains {p : Str} (dead : b.live.get p = none) : Steps setup b (.serviceStarts p)
      { b with
        live := b.live.set p b.births
        births := b.births + 1 }
  | misses {p : Str} : Steps setup b (.serviceEnds p) { b with live := b.live.erase p }

theorem zorkbot_steps {a : Act} (taken : b.step setup a = some c) : Steps setup b a c := by
  cases a with
  | dispatch ctx command restArgs =>
      simp only [step, Option.some.injEq] at taken
      exact taken ▸ .arrives
  | begin t =>
      obtain ⟨g, stepped, rfl⟩ := Option.map_eq_some_iff.mp taken
      exact .begins stepped
  | run t resume =>
      simp only [step] at taken
      split at taken
      · next i there =>
          obtain ⟨turn, blocked, rfl⟩ := Option.map_eq_some_iff.mp taken
          exact .runs there (blocks_of_block blocked)
      · cases taken
  | finish t =>
      simp only [step] at taken
      split at taken
      · next outcome past =>
          obtain ⟨g, stepped, rfl⟩ := Option.map_eq_some_iff.mp taken
          exact .finishes past stepped
      · cases taken
  | ask =>
      simp only [step] at taken
      split at taken
      · next asleep =>
          simp only [Option.some.injEq] at taken
          exact taken ▸ .asks asleep
      · cases taken
  | list =>
      simp only [step] at taken
      split at taken
      · next asked =>
          simp only [Option.some.injEq] at taken
          exact taken ▸ .lists asked
      · cases taken
  | lose =>
      simp only [step] at taken
      split at taken
      · cases taken
      · simp only [Option.some.injEq] at taken
        exact taken ▸ .loses
  | reconcile =>
      simp only [step] at taken
      split at taken
      · next players n listed =>
          simp only [Option.some.injEq] at taken
          exact taken ▸ .reconciles listed
      · cases taken
  | open_ n order =>
      obtain ⟨f, stepped, onto⟩ := Option.bind_eq_some_iff.mp taken
      exact .opens stepped onto
  | deliver n raises =>
      simp only [step] at taken
      split at taken
      · next k q j letter rest there unsent =>
          simp only [Option.some.injEq] at taken
          exact taken ▸ .delivers there unsent
      · cases taken
  | close n outcome order =>
      simp only [step] at taken
      split at taken
      · next empty =>
          obtain ⟨f, stepped, onto⟩ := Option.bind_eq_some_iff.mp taken
          exact .closes empty stepped onto
      · cases taken
  | settle n =>
      obtain ⟨f, stepped, rfl⟩ := Option.map_eq_some_iff.mp taken
      exact .settles stepped
  | serviceStarts p =>
      simp only [step] at taken
      split at taken
      · next dead =>
          simp only [Option.some.injEq] at taken
          exact taken ▸ .gains dead
      · cases taken
  | serviceEnds p =>
      simp only [step, Option.some.injEq] at taken
      exact taken ▸ .misses

/-- A fan-out worker that goes on touches nothing but the fan-out. -/
theorem fanTo_eq {n : Nat} {order : List Str} {f : Fanout Fan} (onto : b.fanTo n order f = some c) :
    ∃ letters, c = { b with fanout := f, letters := letters } := by
  simp only [fanTo, unpack] at onto
  split at onto
  · split at onto
    · simp only [Option.some.injEq] at onto
      exact ⟨_, onto.symm⟩
    · cases onto
  · simp only [Option.some.injEq] at onto
    exact ⟨_, onto.symm⟩

end ZorkBot

/-! ## Adding a session -/

/-- The handler has seen that its player has no session and is going to add one. -/
def Point.adding : Point → Bool
  | .advertising | .starting | .resetting => true
  | _ => false

theorem Point.idle_not_adding {a : Point} (idle : a.idle = true) : a.adding = false := by
  cases a <;> simp_all [Point.idle, Point.adding]

theorem Context.player_eq {i : Item} {p : Str} (own : i.ctx.player = some p) : i.player = p := by
  simp only [Context.player] at own
  simp [Item.player, Item.playerId, own]

namespace SessionState

variable {s : SessionState}

theorem vacant_removeSession {p q : Str} {reason : EndReason}
    (vacant : s.sessions.get q = none) : (s.removeSession p reason).2.sessions.get q = none := by
  unfold removeSession
  split
  · exact vacant
  · change (s.sessions.erase p).get q = none
    rw [Table.get_erase]
    split
    · rfl
    · exact vacant

theorem removeSession_self (p : Str) (reason : EndReason) :
    (s.removeSession p reason).2.sessions.get p = none := by
  unfold removeSession
  split
  · assumption
  · exact Table.get_erase_self _ _

end SessionState

section

variable {setup : Setup} {i : Item} {s : SessionState} {a : Point} {resume : Resume} {turn : Turn}

/-- A block gives nobody a session but the handler's own player. -/
theorem Blocks.vacant_other (blocks : Blocks setup i s a resume turn) {q : Str}
    (other : q ≠ i.player) (vacant : s.sessions.get q = none) :
    turn.state.sessions.get q = none := by
  cases blocks with
  | watches | unwatches => simpa using vacant
  | adds =>
      change (s.sessions.set i.player _).get q = none
      rw [Table.get_set_of_ne other]
      exact vacant
  | ends | forces | resets | vanishes => exact SessionState.vacant_removeSession vacant
  | _ => exact vacant

/-- A handler that is going to add a session has found its player without one. -/
theorem Blocks.vacant_own (blocks : Blocks setup i s a resume turn)
    (vacant : a.adding = true → s.sessions.get i.player = none)
    (adding : turn.point.adding = true) : turn.state.sessions.get i.player = none := by
  cases blocks with
  | advertises own free =>
      rw [Context.player_eq own]
      exact (SessionState.activeState_eq_none free).1
  | starts => exact vacant rfl
  | resets _ _ own =>
      rw [Context.player_eq own]
      exact SessionState.removeSession_self _ _
  | quiet _ idle | watches _ _ idle | unwatches idle | adds _ idle | vanishes idle | records idle =>
      exact absurd adding (by simp [Point.idle_not_adding idle])
  | _ => cases adding

theorem Blocks.consistent (blocks : Blocks setup i s a resume turn)
    (vacant : a.adding = true → s.sessions.get i.player = none)
    (consistent : s.Consistent setup.maxWatchers) : turn.state.Consistent setup.maxWatchers := by
  cases blocks with
  | watches own free =>
      exact consistent.addWatcher _ (SessionState.activeState_eq_none free).2
  | unwatches => exact consistent.removeWatcher _
  | adds asked =>
      apply consistent.addSession _ (vacant _)
      rcases asked with rfl | rfl <;> rfl
  | ends | forces | resets | vanishes => exact consistent.removeSession _ _
  | records | answers => exact consistent.emit _
  | _ => exact consistent

end

namespace ZorkBot

variable {setup : Setup} {b c : ZorkBot}

/-! ## Reconciliation -/

/-- What every removal of one session preserves, a reconciliation preserves. -/
theorem reconcile_induction {motive : ZorkBot → Prop} {players : List Str}
    (asleep : motive { b with poll := .sleeping })
    (one : ∀ b r, motive b → motive (b.reconcileOne players r)) : motive (b.reconcile players) := by
  unfold reconcile
  generalize b.state.allSessions = line
  generalize { b with poll := .sleeping } = b at asleep
  induction line generalizing b with
  | nil => exact asleep
  | cons r rest ih => exact ih _ (one b r asleep)

theorem state_reconcileOne (players : List Str) (b : ZorkBot) (r : Nat) :
    (b.reconcileOne players r).state = b.state ∨
      (b.reconcileOne players r).state =
        (b.state.removeSession (b.state.record r).playerId .serverSide).2 := by
  unfold reconcileOne
  split
  · exact .inl rfl
  · exact .inr rfl

@[simp]
theorem gate_reconcileOne (players : List Str) (b : ZorkBot) (r : Nat) :
    (b.reconcileOne players r).gate = b.gate := by
  unfold reconcileOne
  split <;> rfl

@[simp]
theorem points_reconcileOne (players : List Str) (b : ZorkBot) (r : Nat) :
    (b.reconcileOne players r).points = b.points := by
  unfold reconcileOne
  split <;> rfl

/-! ## What holds of every handler -/

/-- Something is true of every handler that is at work, of the point where it is and of
the registry. -/
def Holds (motive : Item → Point → SessionState → Prop) (b : ZorkBot) : Prop :=
  ∀ t i, b.handling t = some i → motive i (b.point t) b.state

section Rule

variable {motive : Item → Point → SessionState → Prop}

/-- Nothing matters but the gate, the registry and the points. -/
theorem Holds.congr (holds : b.Holds motive) (gate : c.gate = b.gate) (state : c.state = b.state)
    (points : c.points = b.points) : c.Holds motive := by
  intro t i there
  simp only [handling, point, gate, points] at there ⊢
  rw [state]
  exact holds t i there

theorem holds_turnTo (entered : ∀ i s, motive i .entered s) (holds : b.Holds motive) {t : Nat}
    {g : Gate} {a : Gate.Act} (own : a = .begin t ∨ ∃ outcome, a = .finish t outcome)
    (stepped : b.gate.step a = some g) : (b.turnTo t g).Holds motive := by
  intro t' i there
  by_cases same : t' = t
  · subst same
    simpa [point, turnTo] using entered i b.state
  · have before : b.handling t' = some i := by
      rw [handling] at there ⊢
      rw [← Gate.task_of_step own stepped same]
      exact there
    simpa [point, turnTo, Table.get_set_of_ne same] using holds t' i before

theorem point_leave (t : Nat) (p : Str) (turn : Turn) (b : ZorkBot) (t' : Nat) :
    (b.leave t p turn).point t' = if t' = t then turn.point else b.point t' := by
  simp only [point, leave, Table.get_set]
  split <;> rfl

theorem holds_leave (sound : b.gate.Sound) (holds : b.Holds motive) {t : Nat} {i : Item}
    {turn : Turn} (there : b.handling t = some i) (own : motive i turn.point turn.state)
    (other : ∀ j a, j.player ≠ i.player → motive j a b.state → motive j a turn.state) :
    (b.leave t i.player turn).Holds motive := by
  intro t' i' there'
  rw [point_leave]
  change motive i' _ turn.state
  split
  · next same =>
      subst same
      have one : i' = i := by simpa using there'.symm.trans there
      exact one ▸ own
  · next elsewhere =>
      have different : i'.player ≠ i.player :=
        fun one => elsewhere (handling_unique sound there' there one)
      exact other i' _ different (holds t' i' there')

theorem holds_reconcile
    (removed : ∀ i a s p, motive i a s → motive i a (s.removeSession p .serverSide).2)
    (holds : b.Holds motive) (players : List Str) : (b.reconcile players).Holds motive := by
  apply reconcile_induction
  · exact holds.congr rfl rfl rfl
  · intro b r holds
    rcases state_reconcileOne players b r with kept | gone
    · exact holds.congr (gate_reconcileOne ..) kept (points_reconcileOne ..)
    · intro t i there
      rw [gone]
      apply removed
      have same : (b.reconcileOne players r).point t = b.point t := by
        simp only [point, points_reconcileOne]
      rw [same]
      apply holds t i
      simpa only [handling, gate_reconcileOne] using there

/-- The rule for what holds of every handler: it holds of one that is called, the
blocks of a handler preserve it for the handler itself and for those of other players,
and it survives that a session is found gone. -/
theorem holds_step {a : Act} (sound : b.gate.Sound) (holds : b.Holds motive)
    (entered : ∀ i s, motive i .entered s)
    (own : ∀ t i resume turn, a = .run t resume → b.handling t = some i →
      Blocks setup i b.state (b.point t) resume turn → motive i turn.point turn.state)
    (other : ∀ i x resume turn, Blocks setup i b.state x resume turn →
      ∀ j a, j.player ≠ i.player → motive j a b.state → motive j a turn.state)
    (removed : ∀ i a s p, motive i a s → motive i a (s.removeSession p .serverSide).2)
    (taken : b.step setup a = some c) : c.Holds motive := by
  cases zorkbot_steps taken with
  | arrives =>
      intro t i there
      obtain ⟨p, known⟩ := handling_iff.mp there
      exact holds t i (handling_iff.mpr ⟨p, Gate.task_enqueue.mp known⟩)
  | begins stepped => exact holds_turnTo entered holds (.inl rfl) stepped
  | finishes _ stepped => exact holds_turnTo entered holds (.inr ⟨_, rfl⟩) stepped
  | runs there blocks =>
      exact holds_leave sound holds there (own _ _ _ _ rfl there blocks) (other _ _ _ _ blocks)
  | reconciles => exact holds_reconcile removed holds _
  | opens _ onto | closes _ _ onto =>
      obtain ⟨letters, rfl⟩ := fanTo_eq onto
      exact holds.congr rfl rfl rfl
  | _ => exact holds.congr rfl rfl rfl

theorem holds_init : init.Holds motive := by
  intro t i there
  simp [handling, init, Gate.init, Roster.task, Roster.empty] at there

end Rule

/-! ## The invariant -/

/-- Who is going to get a session has none. -/
def Vacant (i : Item) (point : Point) (s : SessionState) : Prop :=
  point.adding = true → s.sessions.get i.player = none

structure Sound (setup : Setup) (b : ZorkBot) : Prop where
  gate : b.gate.Sound
  registry : b.state.Consistent setup.maxWatchers
  vacant : b.Holds Vacant

theorem sound_init : init.Sound setup :=
  ⟨Gate.sound_init, SessionState.consistent_init, holds_init⟩

/-- A step of the bot is a run of the gate. -/
theorem gate_path {a : Act} (taken : b.step setup a = some c) :
    Bot.gate.Path (fun _ _ => True) b.gate c.gate := by
  have goes : ∀ {g h : Gate} a, g.step a = some h → Bot.gate.Path (fun _ _ => True) g h :=
    fun a stepped => .tail (.refl _) (a := a) trivial stepped
  cases zorkbot_steps taken with
  | @arrives ctx command restArgs => exact goes (.dispatch ctx command restArgs) rfl
  | begins stepped | finishes _ stepped => exact goes _ stepped
  | @reconciles players =>
      apply reconcile_induction
        (motive := fun d => Bot.gate.Path (fun _ _ => True) b.gate d.gate)
      · exact .refl _
      · intro d r path
        exact (gate_reconcileOne players d r).symm ▸ path
  | opens _ onto | closes _ _ onto =>
      obtain ⟨letters, rfl⟩ := fanTo_eq onto
      exact .refl _
  | _ => exact .refl _

theorem gateReached {guard : ZorkBot → Act → Prop} (reached : (zorkbot setup).Reachable guard b) :
    Bot.gate.Reachable (fun _ _ => True) b.gate := by
  apply reached.invariant (motive := fun b => Bot.gate.Reachable (fun _ _ => True) b.gate)
  · exact System.reachable_init
  · intro b a c _ reached _ taken
    exact reached.trans (gate_path taken)

theorem gate_step (sound : b.gate.Sound) {a : Act} (taken : b.step setup a = some c) :
    c.gate.Sound :=
  (gate_path taken).stable (motive := Gate.Sound)
    (fun _ _ _ sound _ stepped => Gate.sound_step sound stepped) sound

/-- The registry changes in the blocks of handlers and in reconciliations only. -/
theorem registry_step {motive : SessionState → Prop} (holds : motive b.state) {a : Act}
    (own : ∀ t i resume turn, a = .run t resume → b.handling t = some i →
      Blocks setup i b.state (b.point t) resume turn → motive turn.state)
    (removed : ∀ s p, motive s → motive (s.removeSession p .serverSide).2)
    (taken : b.step setup a = some c) : motive c.state := by
  cases zorkbot_steps taken with
  | runs there blocks => exact own _ _ _ _ rfl there blocks
  | @reconciles players =>
      apply reconcile_induction (motive := fun b => motive b.state)
      · exact holds
      · intro b r holds
        rcases state_reconcileOne players b r with kept | gone
        · exact kept ▸ holds
        · exact gone ▸ removed _ _ holds
  | opens _ onto | closes _ _ onto =>
      obtain ⟨letters, rfl⟩ := fanTo_eq onto
      exact holds
  | _ => exact holds

theorem sound_step (sound : b.Sound setup) {a : Act} (taken : b.step setup a = some c) :
    c.Sound setup := by
  constructor
  · exact gate_step sound.gate taken
  · apply registry_step sound.registry _ _ taken
    · rintro t i resume turn - there blocks
      exact blocks.consistent (sound.vacant t i there) sound.registry
    · intro s p consistent
      exact consistent.removeSession p _
  · apply holds_step sound.gate sound.vacant _ _ _ _ taken
    · exact fun _ _ => nofun
    · rintro t i resume turn - there blocks
      exact blocks.vacant_own (sound.vacant t i there)
    · intro i a resume turn blocks j point different vacant adding
      exact blocks.vacant_other different (vacant adding)
    · intro i a s p vacant adding
      exact SessionState.vacant_removeSession (vacant adding)

theorem sound {guard : ZorkBot → Act → Prop} (reached : (zorkbot setup).Reachable guard b) :
    b.Sound setup := by
  apply reached.invariant (motive := Sound setup)
  · exact sound_init
  · intro b a c _ sound _ taken
    exact sound_step sound taken

/-- In every state of every run the three maps and the watcher sets agree, and no
number was assigned twice. -/
theorem registry_consistent (reached : (zorkbot setup).Reachable (fun _ _ => True) b) :
    b.state.Consistent setup.maxWatchers :=
  (sound reached).registry

theorem registry_consistent_watched :
    ∃ b : ZorkBot, (b.state.record 0).watchers = {bob} ∧ b.state.Consistent 2 := by
  obtain ⟨b, reached, watched⟩ := System.reaches (zorkbot (small 2)) (fun _ _ => True)
    (fun b => (b.state.record 0).watchers = {bob}) (aliceStarts 0 ++ sends bob "watch" "1" 1)
    (fun _ _ _ => trivial) (by decide)
  exact ⟨b, watched, registry_consistent (reached.mono fun _ _ _ => trivial)⟩

/-- With a negative limit a session has more watchers than that even if it has none. -/
theorem session_exceeds_negative_limit :
    ∃ b, (zorkbot (small (-1))).Reachable (fun _ _ => True) b ∧
      ∃ p r, b.state.Plays p r ∧ -1 < ((b.state.record r).watchers.card : Int) := by
  obtain ⟨b, reached, plays, exceeds⟩ := System.reaches (zorkbot (small (-1))) (fun _ _ => True)
    (fun b => b.state.sessions.get alice = some 0 ∧
      -1 < ((b.state.record 0).watchers.card : Int)) (aliceStarts 0) (fun _ _ _ => trivial)
    (by decide)
  exact ⟨b, reached.mono fun _ _ _ => trivial, alice, 0, plays, exceeds⟩

end ZorkBot

end Zorkbot.Bot
