/-
# An operation of the radio is one step

What an operation leaves that has held the lock to its end is what it leaves as one
function of the cache and of the answers that it got: `refreshLocked`, or `writeChannel`.
-/

import Zorkbot.Admin.RadioLink

namespace Zorkbot.Admin

open Transition

variable {setup : RadioSetup}

/-- The operation is one function of the cache. -/
def Finished.Atomic (setup : RadioSetup) (f : Finished) : Prop :=
  match f.op with
  | .refresh force =>
      let done := f.met.before.refreshLocked setup force f.met.clock f.met.answers
      (f.result, f.after) = (.refreshed done.1, done.2)
  | .write idx name secret expectName =>
      ∀ write faults radio,
        (Radio.write setup write idx name secret radio).answers setup faults = f.met.answers →
          let done := f.met.before.writeChannel setup f.met.connected f.met.clock write faults idx
            name secret expectName radio
          (f.result, f.after) = (.wrote done.1, done.2.1)

/-- The operation refreshes even what is fresh. -/
def LinkOp.forces : LinkOp → Bool
  | .refresh force => force
  | .write .. => true

namespace Met

/-- The cache that the refresh of an operation begins with. -/
def opens (m : Met) : LinkOp → RadioState
  | .refresh _ => m.before
  | .write .. => { m.before with lastWriteAt := some m.clock.entered }

/-- The operation needs a refresh. -/
def Passes (setup : RadioSetup) (m : Met) : LinkOp → Prop
  | .refresh force => (m.before.fresh setup m.clock.entered && !force) = false
  | .write .. => m.before.refuses setup m.connected m.clock.entered = none

/-- The sweep has got to an index. -/
structure Swept (setup : RadioSetup) (m : Met) (device : DeviceInfo) (idx : Nat)
    (swept : List Channel) : Prop where
  info : queryDevice setup m.answers.query = some device
  bounded : idx ≤ (device.maxChannels.getD 0).toNat
  blind : setup.commands.getChannel = false → idx = 0
  channels : swept = (List.range idx).filterMap fun i => sweptChannel i (m.answers.channel i)

theorem Swept.next {m : Met} {device : DeviceInfo} {idx : Nat} {swept : List Channel}
    (reads : m.Swept setup device idx swept) (more : RadioLink.More setup device idx)
    (answer : Answer ChannelInfo) :
    (m.channel idx answer).Swept setup device (idx + 1)
      (swept ++ (sweptChannel idx answer).toList) := by
  refine ⟨reads.info, more.2, fun blind => absurd (more.1.symm.trans blind) nofun, ?_⟩
  have before : (List.range idx).filterMap
      (fun i => sweptChannel i ((m.channel idx answer).answers.channel i)) = swept := by
    rw [reads.channels]
    refine List.filterMap_congr fun i early => ?_
    have other : i ≠ idx := (List.mem_range.mp early).ne
    simp [channel, Function.update_of_ne other]
  rw [List.range_succ, List.filterMap_append, before]
  have last : (m.channel idx answer).answers.channel idx = answer := Function.update_self ..
  simp only [List.filterMap_cons, List.filterMap_nil, last]
  cases sweptChannel idx answer <;> rfl

theorem Swept.done {m : Met} {device : DeviceInfo} {idx : Nat} {swept : List Channel}
    (reads : m.Swept setup device idx swept) (done : ¬ RadioLink.More setup device idx) :
    sweepChannels setup m.answers.channel device.maxChannels = swept := by
  rw [reads.channels, sweepChannels]
  cases has : setup.commands.getChannel with
  | false =>
      rw [reads.blind has]
      rfl
  | true =>
      have all : idx = (device.maxChannels.getD 0).toNat := by
        have := not_and.mp done has
        have := reads.bounded
        omega
      rw [all]
      rfl

/-- An operation that needed a refresh ends as the refresh does. -/
theorem atomic_of_refresh {m : Met} {op : LinkOp} (passes : m.Passes setup op)
    (after : Bool × RadioState)
    (refreshes : (m.opens op).refreshLocked setup op.forces m.clock m.answers = after) :
    Finished.Atomic setup ⟨op, m, RadioLink.verdict after.1 after.2 op, after.2⟩ := by
  subst refreshes
  cases op with
  | refresh force => rfl
  | write idx name secret expectName =>
      intro write faults radio answers
      have passed : m.before.refuses setup m.connected m.clock.entered = none := passes
      simp only [RadioState.writeChannel, passed, answers]
      rfl

theorem Passes.due {m : Met} {op : LinkOp} (passes : m.Passes setup op) :
    ((m.opens op).fresh setup m.clock.entered && !op.forces) = false := by
  cases op with
  | refresh force => exact passes
  | write => exact Bool.and_false _

/-- What a sweep to its end leaves. -/
theorem refreshLocked_of_swept {m : Met} {op : LinkOp} (passes : m.Passes setup op)
    {device : DeviceInfo} {idx : Nat} {swept : List Channel}
    (reads : m.Swept setup device idx swept) (done : ¬ RadioLink.More setup device idx) :
    (m.opens op).refreshLocked setup op.forces m.clock m.answers =
      (true,
        { m.opens op with
          device := some device
          channels := some swept
          fetchedAt := m.clock.left
          staleSince := none }) := by
  rw [RadioState.refreshLocked, passes.due, if_neg Bool.false_ne_true, reads.info]
  simp only [reads.done done]

/-- What a device query that raises leaves. -/
theorem refreshLocked_of_raised {m : Met} {op : LinkOp} (passes : m.Passes setup op)
    (raised : queryDevice setup m.answers.query = none) :
    (m.opens op).refreshLocked setup op.forces m.clock m.answers =
      (false,
        { m.opens op with staleSince := (m.opens op).staleSince <|> some m.clock.wall }) := by
  rw [RadioState.refreshLocked, passes.due, if_neg Bool.false_ne_true, raised]

end Met

namespace RadioLink

variable {s t u : RadioLink} {a : LinkAct} {n : Nat} {op : LinkOp}

/-- An operation that needs a refresh has not changed the cache any further. -/
structure Meets (setup : RadioSetup) (s : RadioLink) (op : LinkOp) : Prop where
  cache : s.cache = s.met.opens op
  passes : s.met.Passes setup op

/-- What the holder of the lock knows of its answers is what it has met. -/
structure Minutes (setup : RadioSetup) (s : RadioLink) : Prop where
  held : ∀ {n op point}, s.call n = some (op, point) → point.holds = true → Meets setup s op
  reads : ∀ {n op device idx swept}, s.call n = some (op, .reading device idx swept) →
    s.met.Swept setup device idx swept ∧ More setup device idx
  finished : ∀ f ∈ s.finished, f.Atomic setup

theorem Minutes.queries (minutes : Minutes setup s) (due : Queries setup s a n op u) :
    Meets setup u op ∧ u.finished = s.finished := by
  cases due with
  | refreshes free there stale => exact ⟨⟨rfl, stale⟩, rfl⟩
  | readsBack there => exact ⟨minutes.held there rfl, rfl⟩

theorem Minutes.sweeps (minutes : Minutes setup s) {device : DeviceInfo} {idx : Nat}
    {swept : List Channel} (sweeps : Sweeps setup s a n op device idx swept u) :
    Meets setup u op ∧ u.met.Swept setup device idx swept ∧ u.finished = s.finished := by
  cases sweeps with
  | unasked due absent =>
      obtain ⟨meets, same⟩ := minutes.queries due
      exact ⟨meets, ⟨by simp [queryDevice, absent], Nat.zero_le _, fun _ => rfl, rfl⟩, same⟩
  | answered there info =>
      have meets := minutes.held there rfl
      refine ⟨⟨meets.cache.trans ?_, ?_⟩, ⟨info, Nat.zero_le _, fun _ => rfl, rfl⟩, rfl⟩
      · cases op <;> rfl
      · cases op <;> exact meets.passes
  | @read n op device idx swept answer there =>
      have meets := minutes.held there rfl
      obtain ⟨reads, more⟩ := minutes.reads there
      refine ⟨⟨meets.cache.trans ?_, ?_⟩, reads.next more answer, rfl⟩
      · cases op <;> rfl
      · cases op <;> exact meets.passes

/-- The holder of the lock starts a command. -/
theorem minutes_issue {point : LinkPoint} {command : Command}
    (locked : (u.issue n op point command).Locked) (meets : Meets setup u op)
    (finished : ∀ f ∈ u.finished, f.Atomic setup)
    (reads : ∀ device idx swept, point = .reading device idx swept →
      u.met.Swept setup device idx swept ∧ More setup device idx) :
    Minutes setup (u.issue n op point command) := by
  have mine : ∀ {m op' point'}, (u.issue n op point command).call m = some (op', point') →
      point'.holds = true → op' = op ∧ point' = point := by
    intro m op' point' there holds
    have held := Option.some.inj ((locked.holder there).mp holds)
    rcases call_move there with ⟨-, same⟩ | ⟨other, -⟩
    · exact Prod.mk.inj same
    · exact absurd held.symm other
  refine ⟨fun there holds => ?_, fun there => ?_, finished⟩
  · obtain ⟨rfl, -⟩ := mine there holds
    exact ⟨meets.cache, meets.passes⟩
  · exact reads _ _ _ (mine there rfl).2.symm

/-- The holder of the lock returns. -/
theorem minutes_leave {result : LinkResult} (locked : (u.leave n op result).Locked)
    (finished : ∀ f ∈ u.finished, f.Atomic setup)
    (atomic : Finished.Atomic setup ⟨op, u.met.leaving u.clock, result, u.cache⟩) :
    Minutes setup (u.leave n op result) := by
  have idle : ∀ {m op' point'}, (u.leave n op result).call m = some (op', point') →
      point'.holds = false := by
    intro m op' point' there
    rw [← Bool.not_eq_true, locked.holder there]
    exact nofun
  refine ⟨fun there holds => ?_, fun there => absurd (idle there) nofun, fun f listed => ?_⟩
  · rw [idle there] at holds
    cases holds
  · rcases List.mem_append.mp listed with before | new
    · exact finished f before
    · rw [List.mem_singleton] at new
      exact new ▸ atomic

/-- Whatever does not touch the cache and who holds the lock. -/
theorem Minutes.congr (minutes : Minutes setup s) (cache : t.cache = s.cache)
    (met : t.met = s.met) (finished : t.finished = s.finished)
    (calls : ∀ {n op point}, t.call n = some (op, point) → point.holds = true →
      s.call n = some (op, point)) : Minutes setup t := by
  refine ⟨fun there holds => ?_, fun there => ?_, finished ▸ minutes.finished⟩
  · have meets := minutes.held (calls there holds) holds
    exact ⟨by rw [cache, met, meets.cache], met ▸ meets.passes⟩
  · rw [met]
    exact minutes.reads (calls there rfl)

theorem minutes_step (minutes : Minutes setup s) (locked : t.Locked)
    (steps : Steps setup s a t) : Minutes setup t := by
  cases steps with
  | calls op =>
      refine minutes.congr rfl rfl rfl fun there holds => ?_
      unfold call at there
      rw [List.getElem?_append] at there
      split at there
      · exact there
      · cases List.mem_singleton.mp (List.mem_of_getElem? there)
        cases holds
  | connects | elapses => exact minutes.congr rfl rfl rfl fun there _ => there
  | givesUp | breaks =>
      refine minutes.congr rfl rfl rfl fun there holds => ?_
      rcases call_move there with ⟨-, same⟩ | ⟨-, before⟩
      · cases same
        cases holds
      · exact before
  | fresh free there fresh =>
      refine minutes_leave locked minutes.finished ?_
      simp only [Finished.Atomic, RadioState.refreshLocked, begins, Met.leaving, fresh, verdict,
        Bool.not_false, Bool.and_true, if_true]
  | refuses free there refused =>
      refine minutes_leave locked minutes.finished fun write faults radio _ => ?_
      simp only [RadioState.writeChannel, begins, Met.leaving, refused]
  | sets free there passed =>
      refine minutes_issue locked ⟨rfl, passed⟩ minutes.finished ?_
      rintro _ _ _ ⟨⟩
  | asks due has =>
      obtain ⟨meets, same⟩ := minutes.queries due
      refine minutes_issue locked meets (same ▸ minutes.finished) ?_
      rintro _ _ _ ⟨⟩
  | @fails n op answer wall there raised =>
      have meets := minutes.held there rfl
      have passes : ((s.met.query answer wall).leaving s.clock).Passes setup op := by
        cases op <;> exact meets.passes
      have opens : ((s.met.query answer wall).leaving s.clock).opens op = s.cache :=
        (by cases op <;> rfl : _ = s.met.opens op).trans meets.cache.symm
      refine minutes_leave locked minutes.finished (Met.atomic_of_refresh passes
        (false, (s.noting (.query answer wall)).keepStale.cache) ?_)
      rw [Met.refreshLocked_of_raised passes raised, opens]
      rfl
  | reads sweeps more =>
      obtain ⟨meets, swept, same⟩ := minutes.sweeps sweeps
      refine minutes_issue locked meets (same ▸ minutes.finished) fun device idx _ reading => ?_
      cases reading
      exact ⟨swept, more⟩
  | @stores a n op device idx swept u sweeps done =>
      obtain ⟨meets, reads, same⟩ := minutes.sweeps sweeps
      have passes : (u.met.leaving u.clock).Passes setup op := by
        cases op <;> exact meets.passes
      have opens : (u.met.leaving u.clock).opens op = u.cache :=
        (by cases op <;> rfl : _ = u.met.opens op).trans meets.cache.symm
      have swept' : (u.met.leaving u.clock).Swept setup device idx swept :=
        ⟨reads.info, reads.bounded, reads.blind, reads.channels⟩
      refine minutes_leave locked (same ▸ minutes.finished) (Met.atomic_of_refresh passes
        (true, (u.store device swept).cache) ?_)
      rw [Met.refreshLocked_of_swept passes swept' done, opens]
      rfl

/-- Every operation that held the lock to its end is one function of the cache. -/
theorem finished_atomic (reached : (radioLink setup).Reachable (fun _ _ => True) s) :
    ∀ f ∈ s.finished, f.Atomic setup := by
  refine (reached.invariant (motive := Minutes setup) ?_ ?_).finished
  · have nobody : ∀ {n}, RadioLink.init.call n = none := List.getElem?_nil
    refine ⟨fun there => ?_, fun there => ?_, fun f listed => ?_⟩
    · exact absurd (nobody.symm.trans there) nofun
    · exact absurd (nobody.symm.trans there) nofun
    · exact absurd listed List.not_mem_nil
  · intro s a t before minutes _ taken
    have steps := link_steps taken
    exact minutes_step minutes (locked_step (locked before) steps) steps

end RadioLink

end Zorkbot.Admin
