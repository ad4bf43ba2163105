/-
# The commands of the radio's operations

An operation of `RadioState` that takes the lock talks to the radio one command at a
time. Here the operations are followed from command to command, in any interleaving and
with any answers, and a caller may be cancelled wherever it waits. What an operation
that is not cancelled leaves is what it leaves as one function of the cache.
-/

import Mathlib.Logic.Function.Basic
import Zorkbot.Admin.RadioWrites
import Zorkbot.Transition.System

namespace Zorkbot.Admin

open Zorkbot.Bot (Str)
open Transition

/-- The operations that take the lock: `refresh`, and `_write_channel` for
`set_channel` and `clear_channel`. -/
inductive LinkOp
  | refresh (force : Bool)
  | write (idx : Int) (name : Str) (secret : Option Key) (expectName : Option Str)
  deriving DecidableEq

inductive Command
  | sendDeviceQuery
  | getChannel (idx : Nat)
  | setChannel (idx : Int) (name : Str) (secret : Option Key)
  deriving DecidableEq

def Command.isWrite : Command → Bool
  | .setChannel .. => true
  | _ => false

inductive LinkResult
  | refreshed (fresh : Bool)
  | wrote (result : Except RadioWriteError (Option Channel))
  | cancelled

/-- Where a call waits. -/
inductive LinkPoint
  /-- For the lock, since then. -/
  | waiting (since : ℚ)
  /-- For `set_channel`. -/
  | setting
  /-- For `send_device_query`. -/
  | querying
  /-- For `get_channel` of an index, with the channels before it. -/
  | reading (device : DeviceInfo) (idx : Nat) (swept : List Channel)
  | ended (result : LinkResult)

/-- The call holds the lock, and one of its commands is on its way. -/
def LinkPoint.holds : LinkPoint → Bool
  | .setting | .querying | .reading .. => true
  | .waiting _ | .ended _ => false

/-- A refresh has returned. -/
def LinkPoint.returned : LinkPoint → Bool
  | .ended (.refreshed _) => true
  | _ => false

/-- What an operation has met since it got the lock. -/
structure Met where
  before : RadioState
  connected : Bool
  clock : Readings
  answers : Answers

namespace Met

def init : Met := ⟨.init, false, ⟨0, 0, 0⟩, ⟨.raises, fun _ => .raises⟩⟩

def leaving (clock : ℚ) (m : Met) : Met := { m with clock := { m.clock with left := clock } }

def query (answer : Answer DeviceInfo) (wall : Int) (m : Met) : Met :=
  { m with
    clock := { m.clock with wall := wall }
    answers := { m.answers with query := answer } }

def channel (idx : Nat) (answer : Answer ChannelInfo) (m : Met) : Met :=
  { m with
    answers := { m.answers with channel := Function.update m.answers.channel idx answer } }

end Met

/-- An operation that held the lock and was not cancelled. -/
structure Finished where
  op : LinkOp
  met : Met
  result : LinkResult
  after : RadioState

structure RadioLink where
  cache : RadioState
  connected : Bool
  /-- `time.monotonic`. -/
  clock : ℚ
  /-- The call that holds the lock. -/
  lock : Option Nat
  calls : List (LinkOp × LinkPoint)
  /-- Bookkeeping: every command that was started, and when. -/
  started : List (Command × ℚ)
  /-- Bookkeeping: what the holder of the lock has met. -/
  met : Met
  /-- Bookkeeping. -/
  finished : List Finished

/-- How a command ends. -/
inductive LinkReply
  | written (write : WriteAnswer)
  /-- With `int(time.time())` then. -/
  | queried (answer : Answer DeviceInfo) (wall : Int)
  | read (answer : Answer ChannelInfo)

inductive LinkAct
  | call (op : LinkOp)
  | connect (connected : Bool)
  | elapse (clock : ℚ)
  /-- A call gets the lock. -/
  | enter (n : Nat)
  | answer (n : Nat) (reply : LinkReply)
  | cancel (n : Nat)

namespace RadioLink

variable {setup : RadioSetup} {s t : RadioLink} {n : Nat} {op : LinkOp}

def init : RadioLink := ⟨.init, false, 0, none, [], [], .init, []⟩

def call (s : RadioLink) (n : Nat) : Option (LinkOp × LinkPoint) := s.calls[n]?

def move (n : Nat) (op : LinkOp) (point : LinkPoint) (s : RadioLink) : RadioLink :=
  { s with calls := s.calls.set n (op, point) }

/-! ## The code between two waits -/

/-- The bookkeeping of the call that gets the lock. -/
def begins (s : RadioLink) : RadioLink :=
  { s with met := { Met.init with
    before := s.cache
    connected := s.connected
    clock := ⟨s.clock, s.clock, 0⟩ } }

/-- The bookkeeping of its answers. -/
def noting (f : Met → Met) (s : RadioLink) : RadioLink := { s with met := f s.met }

/-- A command is started. -/
def issue (n : Nat) (op : LinkOp) (point : LinkPoint) (command : Command) (s : RadioLink) :
    RadioLink :=
  { s with
    lock := some n
    started := s.started ++ [(command, s.clock)] }.move n op point

/-- The operation returns, and the lock is released. -/
def leave (n : Nat) (op : LinkOp) (result : LinkResult) (s : RadioLink) : RadioLink :=
  { s with
    lock := none
    finished := s.finished ++ [Finished.mk op (s.met.leaving s.clock) result s.cache] }.move n op
    (.ended result)

/-- What comes of it that `_refresh_locked` returns. -/
def verdict (fresh : Bool) (cache : RadioState) : LinkOp → LinkResult
  | .refresh _ => .refreshed fresh
  | .write idx _ _ expectName => .wrote (RadioState.judge idx expectName (fresh, cache))

/-- `_refresh_locked` returns. -/
def refreshed (n : Nat) (op : LinkOp) (fresh : Bool) (s : RadioLink) : RadioLink :=
  s.leave n op (verdict fresh s.cache op)

/-- The end of `_refresh_locked` after a sweep. -/
def store (device : DeviceInfo) (channels : List Channel) (s : RadioLink) : RadioLink :=
  { s with
    cache :=
      { s.cache with
        device := some device
        channels := some channels
        fetchedAt := s.clock
        staleSince := none } }

/-- The end of `_refresh_locked` after an exception. -/
def keepStale (s : RadioLink) : RadioLink :=
  { s with
    cache := { s.cache with staleSince := s.cache.staleSince <|> some s.met.clock.wall } }

/-- A write is about to be sent. -/
def stamp (s : RadioLink) : RadioLink :=
  { s with cache := { s.cache with lastWriteAt := some s.clock } }

/-- The sweep has another slot to read. -/
def More (setup : RadioSetup) (device : DeviceInfo) (idx : Nat) : Prop :=
  setup.commands.getChannel = true ∧ idx < (device.maxChannels.getD 0).toNat

instance (device : DeviceInfo) (idx : Nat) : Decidable (More setup device idx) := by
  unfold More
  infer_instance

/-- `_sweep_channels` from an index on. -/
def sweep (setup : RadioSetup) (n : Nat) (op : LinkOp) (device : DeviceInfo) (idx : Nat)
    (swept : List Channel) (s : RadioLink) : RadioLink :=
  if More setup device idx then
    s.issue n op (.reading device idx swept) (.getChannel idx)
  else (s.store device swept).refreshed n op true

/-- `_query_device`. -/
def query (setup : RadioSetup) (n : Nat) (op : LinkOp) (s : RadioLink) : RadioLink :=
  if setup.commands.sendDeviceQuery = true then s.issue n op .querying .sendDeviceQuery
  else s.sweep setup n op ⟨none, []⟩ 0 []

/-- An operation from when it has the lock. -/
def enter (setup : RadioSetup) (n : Nat) (op : LinkOp) (s : RadioLink) : RadioLink :=
  match op with
  | .refresh force =>
      if s.cache.fresh setup s.clock && !force then s.begins.refreshed n op true
      else s.begins.query setup n op
  | .write idx name secret _ =>
      match s.cache.refuses setup s.connected s.clock with
      | some refusal => s.begins.leave n op (.wrote (.error refusal))
      | none => s.begins.stamp.issue n op .setting (.setChannel idx name secret)

/-- The device query has been answered. -/
def queried (setup : RadioSetup) (n : Nat) (op : LinkOp) (answer : Answer DeviceInfo) (wall : Int)
    (s : RadioLink) : RadioLink :=
  match queryDevice setup answer with
  | none => (s.noting (.query answer wall)).keepStale.refreshed n op false
  | some device => (s.noting (.query answer wall)).sweep setup n op device 0 []

/-- A slot has been read. -/
def read (setup : RadioSetup) (n : Nat) (op : LinkOp) (device : DeviceInfo) (idx : Nat)
    (swept : List Channel) (answer : Answer ChannelInfo) (s : RadioLink) : RadioLink :=
  (s.noting (.channel idx answer)).sweep setup n op device (idx + 1)
    (swept ++ (sweptChannel idx answer).toList)

def step (setup : RadioSetup) (s : RadioLink) : LinkAct → Option RadioLink
  | .call op => some { s with calls := s.calls ++ [(op, .waiting s.clock)] }
  | .connect connected => some { s with connected := connected }
  | .elapse clock => if s.clock ≤ clock then some { s with clock := clock } else none
  | .enter n =>
      match s.lock, s.call n with
      | none, some (op, .waiting _) => some (s.enter setup n op)
      | _, _ => none
  | .answer n reply =>
      match s.call n, reply with
      | some (op, .setting), .written _ => some (s.query setup n op)
      | some (op, .querying), .queried answer wall => some (s.queried setup n op answer wall)
      | some (op, .reading device idx swept), .read answer =>
          some (s.read setup n op device idx swept answer)
      | _, _ => none
  | .cancel n =>
      match s.call n with
      | some (op, .waiting _) => some (s.move n op (.ended .cancelled))
      | some (op, point) =>
          if point.holds then some ({ s with lock := none }.move n op (.ended .cancelled)) else none
      | none => none

end RadioLink

/-- The operations of `RadioState` next to each other. -/
def radioLink (setup : RadioSetup) : System RadioLink LinkAct := ⟨.init, RadioLink.step setup⟩

namespace RadioLink

variable {setup : RadioSetup} {s t u : RadioLink} {a : LinkAct} {n : Nat} {op : LinkOp}

/-! ## What a step does -/

/-- A device query is due. -/
inductive Queries (setup : RadioSetup) (s : RadioLink) :
    LinkAct → Nat → LinkOp → RadioLink → Prop
  | refreshes {n : Nat} {force : Bool} {since : ℚ} (free : s.lock = none)
      (there : s.call n = some (.refresh force, .waiting since))
      (stale : (s.cache.fresh setup s.clock && !force) = false) :
      Queries setup s (.enter n) n (.refresh force) s.begins
  | readsBack {n : Nat} {op : LinkOp} {write : WriteAnswer}
      (there : s.call n = some (op, .setting)) :
      Queries setup s (.answer n (.written write)) n op s

/-- A sweep has got to an index. -/
inductive Sweeps (setup : RadioSetup) (s : RadioLink) :
    LinkAct → Nat → LinkOp → DeviceInfo → Nat → List Channel → RadioLink → Prop
  | unasked {a : LinkAct} {n : Nat} {op : LinkOp} {u : RadioLink} (due : Queries setup s a n op u)
      (absent : setup.commands.sendDeviceQuery = false) :
      Sweeps setup s a n op ⟨none, []⟩ 0 [] u
  | answered {n : Nat} {op : LinkOp} {answer : Answer DeviceInfo} {wall : Int}
      {device : DeviceInfo} (there : s.call n = some (op, .querying))
      (info : queryDevice setup answer = some device) :
      Sweeps setup s (.answer n (.queried answer wall)) n op device 0 []
        (s.noting (.query answer wall))
  | read {n : Nat} {op : LinkOp} {device : DeviceInfo} {idx : Nat} {swept : List Channel}
      {answer : Answer ChannelInfo} (there : s.call n = some (op, .reading device idx swept)) :
      Sweeps setup s (.answer n (.read answer)) n op device (idx + 1)
        (swept ++ (sweptChannel idx answer).toList) (s.noting (.channel idx answer))

inductive Steps (setup : RadioSetup) (s : RadioLink) : LinkAct → RadioLink → Prop
  | calls (op : LinkOp) :
      Steps setup s (.call op) { s with calls := s.calls ++ [(op, .waiting s.clock)] }
  | connects (connected : Bool) : Steps setup s (.connect connected) { s with connected := connected }
  | elapses {clock : ℚ} (later : s.clock ≤ clock) :
      Steps setup s (.elapse clock) { s with clock := clock }
  | fresh {n : Nat} {since : ℚ} (free : s.lock = none)
      (there : s.call n = some (.refresh false, .waiting since))
      (fresh : s.cache.fresh setup s.clock = true) :
      Steps setup s (.enter n) (s.begins.refreshed n (.refresh false) true)
  | refuses {n : Nat} {since : ℚ} {idx : Int} {name : Str} {secret : Option Key}
      {expectName : Option Str} {refusal : RadioWriteError} (free : s.lock = none)
      (there : s.call n = some (.write idx name secret expectName, .waiting since))
      (refused : s.cache.refuses setup s.connected s.clock = some refusal) :
      Steps setup s (.enter n)
        (s.begins.leave n (.write idx name secret expectName) (.wrote (.error refusal)))
  | sets {n : Nat} {since : ℚ} {idx : Int} {name : Str} {secret : Option Key}
      {expectName : Option Str} (free : s.lock = none)
      (there : s.call n = some (.write idx name secret expectName, .waiting since))
      (passed : s.cache.refuses setup s.connected s.clock = none) :
      Steps setup s (.enter n)
        (s.begins.stamp.issue n (.write idx name secret expectName) .setting
          (.setChannel idx name secret))
  | asks {a : LinkAct} {n : Nat} {op : LinkOp} {u : RadioLink} (due : Queries setup s a n op u)
      (has : setup.commands.sendDeviceQuery = true) :
      Steps setup s a (u.issue n op .querying .sendDeviceQuery)
  | fails {n : Nat} {op : LinkOp} {answer : Answer DeviceInfo} {wall : Int}
      (there : s.call n = some (op, .querying)) (raised : queryDevice setup answer = none) :
      Steps setup s (.answer n (.queried answer wall))
        ((s.noting (.query answer wall)).keepStale.refreshed n op false)
  | reads {a : LinkAct} {n : Nat} {op : LinkOp} {device : DeviceInfo} {idx : Nat}
      {swept : List Channel} {u : RadioLink} (sweeps : Sweeps setup s a n op device idx swept u)
      (more : More setup device idx) :
      Steps setup s a (u.issue n op (.reading device idx swept) (.getChannel idx))
  | stores {a : LinkAct} {n : Nat} {op : LinkOp} {device : DeviceInfo} {idx : Nat}
      {swept : List Channel} {u : RadioLink} (sweeps : Sweeps setup s a n op device idx swept u)
      (done : ¬ More setup device idx) :
      Steps setup s a ((u.store device swept).refreshed n op true)
  | givesUp {n : Nat} {op : LinkOp} {since : ℚ} (there : s.call n = some (op, .waiting since)) :
      Steps setup s (.cancel n) (s.move n op (.ended .cancelled))
  | breaks {n : Nat} {op : LinkOp} {point : LinkPoint} (there : s.call n = some (op, point))
      (holds : point.holds = true) :
      Steps setup s (.cancel n) ({ s with lock := none }.move n op (.ended .cancelled))

theorem steps_sweep {device : DeviceInfo} {idx : Nat} {swept : List Channel}
    (sweeps : Sweeps setup s a n op device idx swept u) :
    Steps setup s a (u.sweep setup n op device idx swept) := by
  unfold sweep
  split
  · next more => exact .reads sweeps more
  · next done => exact .stores sweeps done

theorem steps_query (due : Queries setup s a n op u) : Steps setup s a (u.query setup n op) := by
  unfold query
  split
  · next has => exact .asks due has
  · next absent => exact steps_sweep (.unasked due (by simpa using absent))

theorem steps_enter {since : ℚ} (free : s.lock = none)
    (there : s.call n = some (op, .waiting since)) :
    Steps setup s (.enter n) (s.enter setup n op) := by
  cases op with
  | refresh force =>
      simp only [enter]
      split
      · next current =>
          rw [Bool.and_eq_true, Bool.not_eq_true'] at current
          obtain ⟨fresh, rfl⟩ := current
          exact .fresh free there fresh
      · next stale => exact steps_query (.refreshes free there (by simpa using stale))
  | write idx name secret expectName =>
      simp only [enter]
      split
      · next refused => exact .refuses free there refused
      · next passed => exact .sets free there passed

theorem link_steps (taken : s.step setup a = some t) : Steps setup s a t := by
  cases a with
  | call op =>
      cases taken
      exact .calls op
  | connect connected =>
      cases taken
      exact .connects connected
  | elapse clock =>
      simp only [step] at taken
      split at taken
      · next later =>
          cases taken
          exact .elapses later
      · cases taken
  | enter n =>
      simp only [step] at taken
      split at taken
      · next free there =>
          cases taken
          exact steps_enter free there
      · cases taken
  | answer n reply =>
      simp only [step] at taken
      split at taken <;> cases taken
      · next there => exact steps_query (.readsBack there)
      · next there =>
          unfold queried
          split
          · next raised => exact .fails there raised
          · next info => exact steps_sweep (.answered there info)
      · next there => exact steps_sweep (.read there)
  | cancel n =>
      simp only [step] at taken
      split at taken
      · next there =>
          cases taken
          exact .givesUp there
      · next there =>
          split at taken
          · next holds =>
              cases taken
              exact .breaks there holds
          · cases taken
      · cases taken

/-! ## One command at a time -/

/-- Who holds the lock has a command on its way, and nobody else has. -/
structure Locked (s : RadioLink) : Prop where
  holder : ∀ {n op point}, s.call n = some (op, point) → (point.holds = true ↔ s.lock = some n)
  known : ∀ {n}, s.lock = some n → ∃ op point, s.call n = some (op, point)

theorem call_move {m : Nat} {point : LinkPoint} {entry : LinkOp × LinkPoint}
    (there : (s.move n op point).call m = some entry) :
    m = n ∧ entry = (op, point) ∨ m ≠ n ∧ s.call m = some entry := by
  unfold call move at there
  rw [List.getElem?_set] at there
  split at there
  · next same =>
      split at there
      · exact .inl ⟨same.symm, (Option.some.inj there).symm⟩
      · cases there
  · next other => exact .inr ⟨fun same => other same.symm, there⟩

theorem call_move_self {entry : LinkOp × LinkPoint} (there : s.call n = some entry)
    (point : LinkPoint) : (s.move n op point).call n = some (op, point) := by
  obtain ⟨early, -⟩ := List.getElem?_eq_some_iff.mp there
  exact List.getElem?_set_self early

/-- Nobody but who holds the lock, or gets it, has a command on its way. -/
theorem Locked.spared (locked : s.Locked) (mine : s.lock = none ∨ s.lock = some n) {m : Nat}
    {point : LinkPoint} (there : s.call m = some (op, point)) (other : m ≠ n) :
    point.holds = false := by
  rw [← Bool.not_eq_true, locked.holder there]
  rintro held
  rcases mine with free | mine
  · exact absurd (free.symm.trans held) nofun
  · exact other (Option.some.inj (held.symm.trans mine))

/-- A call that holds the lock, or gets it, starts a command. -/
theorem Locked.issue (locked : s.Locked) {entry : LinkOp × LinkPoint}
    (there : s.call n = some entry) (mine : s.lock = none ∨ s.lock = some n) {point : LinkPoint}
    (holds : point.holds = true) (command : Command) : (s.issue n op point command).Locked := by
  refine ⟨fun {m op' point'} there' => ?_, fun {m} held => ?_⟩
  · change _ ↔ some n = some m
    rcases call_move there' with ⟨rfl, same⟩ | ⟨other, before⟩
    · rw [Prod.mk.injEq] at same
      simp [same.2, holds]
    · simp [locked.spared mine before other, other.symm]
  · cases held
    exact ⟨op, point, call_move_self there point⟩

/-- A call that holds the lock, or gets it, ends. -/
theorem Locked.leave (locked : s.Locked) (mine : s.lock = none ∨ s.lock = some n)
    (result : LinkResult) : (s.leave n op result).Locked := by
  refine ⟨fun {m op' point'} there' => ?_, nofun⟩
  change _ ↔ none = some m
  rcases call_move there' with ⟨rfl, same⟩ | ⟨other, before⟩
  · rw [Prod.mk.injEq] at same
    simp [same.2, LinkPoint.holds]
  · simp [locked.spared mine before other]

/-- A call that waits for nothing of the radio's moves about. -/
theorem Locked.congr (locked : s.Locked) (lock : t.lock = s.lock)
    (calls : ∀ {n op point}, t.call n = some (op, point) →
      s.call n = some (op, point) ∨ point.holds = false ∧ s.lock ≠ some n)
    (kept : ∀ {n op point}, s.call n = some (op, point) → ∃ op point, t.call n = some (op, point)) :
    t.Locked := by
  refine ⟨fun there => ?_, fun held => ?_⟩
  · rw [lock]
    rcases calls there with before | ⟨rests, free⟩
    · exact locked.holder before
    · simp [rests, free]
  · obtain ⟨op, point, there⟩ := locked.known (lock ▸ held)
    exact kept there

/-- Who a step is about has the lock or gets it, and the bookkeeping is all that changed. -/
structure Serves (s : RadioLink) (n : Nat) (op : LinkOp) (u : RadioLink) : Prop where
  there : ∃ point, s.call n = some (op, point)
  mine : s.lock = none ∨ s.lock = some n
  same : u = { s with met := u.met }

theorem Queries.serves (locked : s.Locked) (due : Queries setup s a n op u) : Serves s n op u := by
  cases due with
  | refreshes free there => exact ⟨⟨_, there⟩, .inl free, rfl⟩
  | readsBack there => exact ⟨⟨_, there⟩, .inr ((locked.holder there).mp rfl), rfl⟩

theorem Sweeps.serves (locked : s.Locked) {device : DeviceInfo} {idx : Nat}
    {swept : List Channel} (sweeps : Sweeps setup s a n op device idx swept u) :
    Serves s n op u := by
  cases sweeps with
  | unasked due => exact due.serves locked
  | answered there | read there => exact ⟨⟨_, there⟩, .inr ((locked.holder there).mp rfl), rfl⟩

/-- Locks do not depend on what is cached or noted. -/
theorem Locked.of_fields (locked : s.Locked) (lock : t.lock = s.lock) (calls : t.calls = s.calls) :
    t.Locked := by
  have same : ∀ n, t.call n = s.call n := fun n => by rw [call, call, calls]
  exact locked.congr lock (fun there => .inl (same _ ▸ there)) fun there => ⟨_, _, same _ ▸ there⟩

theorem Serves.locked (serves : Serves s n op u) (locked : s.Locked) : u.Locked := by
  rw [serves.same]
  exact locked.of_fields rfl rfl

theorem Serves.there' (serves : Serves s n op u) : ∃ point, u.call n = some (op, point) := by
  rw [serves.same]
  exact serves.there

theorem Serves.mine' (serves : Serves s n op u) : u.lock = none ∨ u.lock = some n := by
  rw [serves.same]
  exact serves.mine

theorem locked_step (locked : s.Locked) (steps : Steps setup s a t) : t.Locked := by
  cases steps with
  | calls op =>
      refine locked.congr rfl (fun {n op' point} there => ?_) fun {n op' point} there => ?_
      · unfold call at there
        rw [List.getElem?_append] at there
        split at there
        · exact .inl there
        · next late =>
            obtain rfl := Prod.mk.inj (List.mem_singleton.mp (List.mem_of_getElem? there)) |>.2
            refine .inr ⟨rfl, fun held => ?_⟩
            obtain ⟨op', point', known⟩ := locked.known held
            exact late (List.getElem?_eq_some_iff.mp known).1
      · exact ⟨op', point,
          (List.getElem?_append_left (List.getElem?_eq_some_iff.mp there).1).trans there⟩
  | connects | elapses => exact locked.of_fields rfl rfl
  | fresh free there | refuses free there =>
      exact (locked.of_fields rfl rfl : s.begins.Locked).leave (.inl free) _
  | sets free there =>
      exact (locked.of_fields rfl rfl : s.begins.stamp.Locked).issue there (.inl free) rfl _
  | asks due has =>
      have serves := due.serves locked
      obtain ⟨point, there⟩ := serves.there'
      exact (serves.locked locked).issue there serves.mine' rfl _
  | @fails n op answer wall there raised =>
      have noted : (s.noting (.query answer wall)).keepStale.Locked := locked.of_fields rfl rfl
      exact noted.leave (.inr ((locked.holder there).mp rfl)) _
  | reads sweeps more =>
      have serves := sweeps.serves locked
      obtain ⟨point, there⟩ := serves.there'
      exact (serves.locked locked).issue there serves.mine' rfl _
  | @stores a n op device idx swept u sweeps done =>
      have serves := sweeps.serves locked
      have stored : (u.store device swept).Locked := (serves.locked locked).of_fields rfl rfl
      exact stored.leave serves.mine' _
  | @givesUp n op since there =>
      refine locked.congr rfl (fun {m op' point} there' => ?_) fun {m op' point} there' => ?_
      · rcases call_move there' with ⟨rfl, same⟩ | ⟨-, before⟩
        · rw [Prod.mk.injEq] at same
          refine .inr ⟨same.2 ▸ rfl, fun held => ?_⟩
          exact absurd ((locked.holder there).mpr held) nofun
        · exact .inl before
      · by_cases own : m = n
        · subst own
          exact ⟨_, _, call_move_self there _⟩
        · refine ⟨op', point, ?_⟩
          unfold call move
          rw [List.getElem?_set_ne (Ne.symm own)]
          exact there'
  | @breaks n op point there holds =>
      have mine : s.lock = some n := (locked.holder there).mp holds
      exact (locked.leave (.inr mine) .cancelled).of_fields rfl rfl

theorem locked {guard : RadioLink → LinkAct → Prop}
    (reached : (radioLink setup).Reachable guard s) : s.Locked := by
  refine reached.invariant (motive := Locked) ?_ ?_
  · exact ⟨nofun, nofun⟩
  · exact fun _ _ _ _ prior _ taken => locked_step prior (link_steps taken)

/-! ## Writes are spaced -/

/-- When each `set_channel` was started. -/
def writes (s : RadioLink) : List ℚ := (s.started.filter fun entry => entry.1.isWrite).map (·.2)

/-- The last write is remembered, and each is an interval after those before it, by the difference
that the code computes. -/
structure Spaced (setup : RadioSetup) (s : RadioLink) : Prop where
  stamped : ∀ w ∈ s.writes, ∃ last, s.cache.lastWriteAt = some last ∧ w ≤ last
  past : ∀ last, s.cache.lastWriteAt = some last → last ≤ s.clock
  apart : s.writes.Pairwise fun a b => setup.writeMinInterval ≤ Binary64.nearest (b - a)

theorem Spaced.congr (spaced : Spaced setup s) (writes : t.writes = s.writes)
    (lastWriteAt : t.cache.lastWriteAt = s.cache.lastWriteAt) (clock : s.clock ≤ t.clock) :
    Spaced setup t := by
  refine ⟨?_, fun last stamped => (spaced.past last (lastWriteAt ▸ stamped)).trans clock, ?_⟩
  · rw [writes, lastWriteAt]
    exact spaced.stamped
  · rw [writes]
    exact spaced.apart

/-- A command that is no write. -/
theorem writes_issue {command : Command} (reads : command.isWrite = false) (point : LinkPoint) :
    (s.issue n op point command).writes = s.writes := by
  simp [writes, issue, move, reads]

theorem Serves.spaced (serves : Serves s n op u) (spaced : Spaced setup s) : Spaced setup u := by
  rw [serves.same]
  exact spaced.congr rfl rfl le_rfl

theorem spaced_step (locked : s.Locked) (spaced : Spaced setup s) (steps : Steps setup s a t) :
    Spaced setup t := by
  cases steps with
  | calls | connects | fresh | refuses | fails | givesUp | breaks =>
      exact spaced.congr rfl rfl le_rfl
  | elapses later => exact spaced.congr rfl rfl later
  | asks due has =>
      exact ((due.serves locked).spaced spaced).congr (writes_issue rfl _) rfl le_rfl
  | reads sweeps more =>
      exact ((sweeps.serves locked).spaced spaced).congr (writes_issue rfl _) rfl le_rfl
  | stores sweeps done => exact ((sweeps.serves locked).spaced spaced).congr rfl rfl le_rfl
  | @sets n since idx name secret expectName free there passed =>
      have writes : (s.begins.stamp.issue n (.write idx name secret expectName) .setting
          (.setChannel idx name secret)).writes = s.writes ++ [s.clock] := by
        simp [writes, issue, move, begins, stamp, Command.isWrite]
      have rested : ∀ last, s.cache.lastWriteAt = some last →
          setup.writeMinInterval ≤ Binary64.nearest (s.clock - last) := by
        intro last stamped
        unfold RadioState.refuses at passed
        split at passed
        · cases passed
        · split at passed
          · cases passed
          · next calm =>
              rw [stamped, Option.any_some, decide_eq_true_eq, not_lt] at calm
              exact calm
      refine ⟨fun w listed => ⟨s.clock, rfl, ?_⟩, fun last stamped => ?_, ?_⟩
      · rw [writes, List.mem_append, List.mem_singleton] at listed
        rcases listed with before | rfl
        · obtain ⟨last, stamped, early⟩ := spaced.stamped w before
          exact early.trans (spaced.past last stamped)
        · exact le_rfl
      · cases stamped
        exact le_rfl
      · rw [writes, List.pairwise_append]
        refine ⟨spaced.apart, List.pairwise_singleton _ _, fun w before now same => ?_⟩
        rw [List.mem_singleton] at same
        subst same
        obtain ⟨last, stamped, early⟩ := spaced.stamped w before
        exact (rested last stamped).trans (Binary64.nearest_mono (sub_le_sub_left early s.clock))

theorem spaced {guard : RadioLink → LinkAct → Prop}
    (reached : (radioLink setup).Reachable guard s) : Spaced setup s := by
  refine reached.invariant (motive := Spaced setup) ?_ ?_
  · exact ⟨nofun, nofun, .nil⟩
  · exact fun _ _ _ prior before _ taken => spaced_step (locked prior) before (link_steps taken)

end RadioLink

end Zorkbot.Admin
