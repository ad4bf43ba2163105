/-
# One refresh for all that wait

The first of the callers that find the cache cold queries the radio and sweeps its
channels. Those that came while it did so find the cache fresh once they have the lock,
unless they had to wait for longer than the cache lasts.
-/

import Zorkbot.Admin.RadioLink

namespace Zorkbot.Admin

open Zorkbot.Bot (Str)
open Transition

namespace RadioLink

variable {setup : RadioSetup} {s t u : RadioLink} {a : LinkAct} {n : Nat} {op : LinkOp}

/-- The commands of a device query. -/
def queryCommands (setup : RadioSetup) : List Command :=
  if setup.commands.sendDeviceQuery then [.sendDeviceQuery] else []

/-- The commands of a channel sweep. -/
def sweepCommands (setup : RadioSetup) (device : DeviceInfo) : List Command :=
  if setup.commands.getChannel then
    (List.range (device.maxChannels.getD 0).toNat).map .getChannel
  else []

/-- The commands that were started between two states of a run. -/
def issued (s t : RadioLink) : List Command :=
  (t.started.drop s.started.length).map (·.1)

/-- No call is under way. -/
def Quiet (s : RadioLink) : Prop :=
  ∀ {n op point}, s.call n = some (op, point) → ∃ result, point = .ended result

/-- Nothing but refreshes, called before any of them has returned: the device query does
not raise, who holds the lock is not cancelled, and nobody waits for as long as the
cache lasts. -/
def joins (setup : RadioSetup) (s u : RadioLink) : LinkAct → Bool
  | .call op => decide (op = .refresh false) &&
      (u.calls.drop s.calls.length).all fun entry => !LinkPoint.returned entry.2
  | .enter n =>
      match u.call n with
      | some (_, .waiting since) =>
          decide (Binary64.nearest (u.clock - since) < setup.cacheSeconds)
      | _ => true
  | .answer _ (.queried answer _) => (queryDevice setup answer).isSome
  | .cancel n => decide (u.lock ≠ some n)
  | _ => true

theorem early_of_joins {since : ℚ} (allowed : joins setup s u (.enter n) = true)
    (there : u.call n = some (op, .waiting since)) :
    Binary64.nearest (u.clock - since) < setup.cacheSeconds := by
  simpa only [joins, there, decide_eq_true_eq] using allowed

/-- A call that does not hold the lock: an old one is over, and a new one is a refresh
that waits since some time at the latest, or was cancelled, or found the cache fresh. -/
def Rests (old : Nat) (latest : ℚ) (done : Prop) (n : Nat) (op : LinkOp) : LinkPoint → Prop
  | .waiting since => old ≤ n ∧ op = .refresh false ∧ since ≤ latest
  | .ended (.refreshed fresh) => old ≤ n → fresh = true ∧ done
  | .ended _ => True
  | _ => old ≤ n ∧ op = .refresh false

theorem Rests.mono {old : Nat} {latest later : ℚ} {done done' : Prop} {point : LinkPoint}
    (rests : Rests old latest done n op point) (time : latest ≤ later) (ended : done → done') :
    Rests old later done' n op point := by
  cases point with
  | waiting since => exact ⟨rests.1, rests.2.1, rests.2.2.trans time⟩
  | setting | querying | reading => exact rests
  | ended result =>
      cases result with
      | refreshed fresh => exact fun new => ⟨(rests new).1, ended (rests new).2⟩
      | wrote | cancelled => trivial

/-- How far the commands are, where the refresh that holds the lock waits. -/
def Sent (setup : RadioSetup) : LinkPoint → List Command → Prop
  | .querying, sent => sent = queryCommands setup
  | .reading device idx _, sent => More setup device idx ∧
      sent = queryCommands setup ++ (List.range (idx + 1)).map .getChannel
  | _, _ => False

/-- Where the refreshes are that began in a state. -/
inductive Flight (setup : RadioSetup) (s t : RadioLink) : Prop
  /-- Nobody has had the lock. -/
  | before (free : t.lock = none) (cache : t.cache = s.cache) (clock : s.clock ≤ t.clock)
      (sent : t.started = s.started)
      (rests : ∀ {n op point}, t.call n = some (op, point) →
        Rests s.calls.length t.clock False n op point)
  /-- One refreshes. -/
  | during {n : Nat} {point : LinkPoint} (held : t.lock = some n) (new : s.calls.length ≤ n)
      (there : t.call n = some (.refresh false, point))
      (sent : ∃ added, t.started = s.started ++ added ∧ Sent setup point (added.map (·.1)))
      (rests : ∀ {n op point}, t.call n = some (op, point) →
        Rests s.calls.length t.clock False n op point)
  /-- It has refreshed. -/
  | after {n : Nat} {device : DeviceInfo} (free : t.lock = none)
      (cache : t.cache.device = some device) (clock : t.cache.fetchedAt ≤ t.clock)
      (sent : ∃ added, t.started = s.started ++ added ∧
        added.map (·.1) = queryCommands setup ++ sweepCommands setup device)
      (new : s.calls.length ≤ n)
      (there : t.call n = some (.refresh false, .ended (.refreshed true)))
      (rests : ∀ {n op point}, t.call n = some (op, point) →
        Rests s.calls.length t.cache.fetchedAt True n op point)

/-- The commands up to a slot of a sweep. -/
def SentTo (setup : RadioSetup) (s u : RadioLink) (device : DeviceInfo) (idx : Nat) : Prop :=
  idx ≤ (device.maxChannels.getD 0).toNat ∧ (setup.commands.getChannel = false → idx = 0) ∧
    ∃ added, u.started = s.started ++ added ∧
      added.map (·.1) = queryCommands setup ++ (List.range idx).map .getChannel

/-- A sweep that has got to an index sends on, or is done. -/
theorem flight_sweep {device : DeviceInfo} {idx : Nat} {swept : List Channel}
    (sent : SentTo setup s u device idx) (new : s.calls.length ≤ n) {point : LinkPoint}
    (there : u.call n = some (.refresh false, point))
    (rests : ∀ {n op point}, u.call n = some (op, point) →
        Rests s.calls.length u.clock False n op point) :
    Flight setup s (u.sweep setup n (.refresh false) device idx swept) := by
  obtain ⟨bounded, blind, added, started, commands⟩ := sent
  unfold sweep
  split
  · next more =>
      refine .during rfl new (call_move_self there _) ⟨added ++ [(.getChannel idx, u.clock)], ?_, ?_⟩
        fun {m op' point'} there' => ?_
      · change u.started ++ _ = _
        rw [started, List.append_assoc]
      · refine ⟨more, ?_⟩
        rw [List.map_append, commands, List.range_succ, List.map_append, List.append_assoc]
        rfl
      · rcases call_move there' with ⟨rfl, same⟩ | ⟨-, before⟩
        · cases same
          exact ⟨new, rfl⟩
        · exact rests before
  · next done =>
      refine .after (n := n) rfl (rfl : _ = some device) le_rfl ⟨added, started, ?_⟩ new
        (call_move_self there _) fun {m op' point'} there' => ?_
      · rw [commands, sweepCommands]
        cases has : setup.commands.getChannel with
        | false => rw [blind has]; rfl
        | true =>
            have all : idx = (device.maxChannels.getD 0).toNat := by
              have := not_and.mp done has
              omega
            rw [all]
            rfl
      · rcases call_move there' with ⟨rfl, same⟩ | ⟨-, before⟩
        · cases same
          exact fun _ => ⟨rfl, trivial⟩
        · exact (rests before).mono le_rfl False.elim

/-- Time passes, or a call that waits is cancelled. -/
theorem Flight.idle (flight : Flight setup s u) (lock : t.lock = u.lock)
    (cache : t.cache = u.cache) (started : t.started = u.started) (clock : u.clock ≤ t.clock)
    (calls : ∀ {n op point}, t.call n = some (op, point) →
      u.call n = some (op, point) ∨ point = .ended .cancelled)
    (kept : ∀ {n op point}, u.call n = some (op, point) → (∀ since, point ≠ .waiting since) →
      t.call n = some (op, point)) : Flight setup s t := by
  have rest : ∀ {latest later done n op point}, latest ≤ later →
      (∀ {n op point}, u.call n = some (op, point) → Rests s.calls.length latest done n op point) →
      t.call n = some (op, point) → Rests s.calls.length later done n op point := by
    intro latest later done n op point time rests there
    rcases calls there with before | rfl
    · exact (rests before).mono time id
    · trivial
  cases flight with
  | before free cache' clock' sent rests =>
      exact .before (lock.trans free) (cache.trans cache') (clock'.trans clock)
        (started.trans sent) (rest clock rests)
  | @during n point held new there sent rests =>
      refine .during (lock.trans held) new (kept there ?_) (started ▸ sent) (rest clock rests)
      rintro since rfl
      obtain ⟨added, -, wrong⟩ := sent
      exact wrong
  | after free cache' clock' sent new there rests =>
      refine .after (lock.trans free) (cache ▸ cache') (cache ▸ clock'.trans clock)
        (started ▸ sent) new (kept there nofun) (rest ?_ rests)
      rw [cache]

/-- Whoever waits for the lock is a new refresh. -/
theorem Flight.waits (flight : Flight setup s u) {since : ℚ}
    (there : u.call n = some (op, .waiting since)) :
    s.calls.length ≤ n ∧ op = .refresh false := by
  cases flight with
  | before _ _ _ _ rests | during _ _ _ _ rests | after _ _ _ _ _ _ rests =>
      exact ⟨(rests there).1, (rests there).2.1⟩

/-- A cold cache stays cold. -/
theorem stale_later (cold : s.cache.fresh setup s.clock = false) (cache : u.cache = s.cache)
    (clock : s.clock ≤ u.clock) : u.cache.fresh setup u.clock = false := by
  rw [RadioState.fresh, Bool.and_eq_false_iff, decide_eq_false_iff_not, not_lt] at cold ⊢
  rw [cache]
  exact cold.imp_right fun old => old.trans (Binary64.nearest_mono (sub_le_sub_right clock _))

/-- Who came before the cache was filled finds it fresh. -/
theorem fresh_after {device : DeviceInfo} (cache : u.cache.device = some device) {since : ℚ}
    (came : since ≤ u.cache.fetchedAt)
    (early : Binary64.nearest (u.clock - since) < setup.cacheSeconds) :
    u.cache.fresh setup u.clock = true := by
  rw [RadioState.fresh, cache, Bool.and_eq_true, decide_eq_true_eq]
  exact ⟨rfl, (Binary64.nearest_mono (sub_le_sub_left came _)).trans_lt early⟩

/-- What holds the lock is the new refresh. -/
theorem Flight.holds (flight : Flight setup s u) (locked : u.Locked) {point : LinkPoint}
    (there : u.call n = some (op, point)) (holds : point.holds = true) :
    s.calls.length ≤ n ∧ op = .refresh false ∧
      (∃ added, u.started = s.started ++ added ∧ Sent setup point (added.map (·.1))) ∧
      ∀ {n op point}, u.call n = some (op, point) →
        Rests s.calls.length u.clock False n op point := by
  have held := (locked.holder there).mp holds
  cases flight with
  | before free | after free => exact absurd (held.symm.trans free) nofun
  | during held' new there' sent rests =>
      obtain rfl := Option.some.inj (held.symm.trans held')
      have same := there.symm.trans there'
      rw [Option.some.injEq, Prod.mk.injEq] at same
      exact ⟨new, same.1, same.2 ▸ sent, rests⟩

/-- Only the first queries the radio. -/
theorem Flight.due (flight : Flight setup s u) (locked : u.Locked)
    (allowed : joins setup s u a = true) {v : RadioLink} (due : Queries setup u a n op v) :
    s.calls.length ≤ n ∧ op = .refresh false ∧ v = u.begins ∧ u.started = s.started ∧
      (∃ since, u.call n = some (op, .waiting since)) ∧ ∀ {n op point},
        u.call n = some (op, point) → Rests s.calls.length u.clock False n op point := by
  cases due with
  | @refreshes n force since free there stale =>
      obtain ⟨new, same⟩ := flight.waits there
      cases same
      cases flight with
      | before _ cache clock sent rests => exact ⟨new, rfl, rfl, sent, ⟨since, there⟩, rests⟩
      | during held => exact absurd (held.symm.trans free) nofun
      | after _ cache clock sent _ there' rests =>
          rw [fresh_after cache (rests there).2.2 (early_of_joins allowed there)] at stale
          cases stale
  | readsBack there => exact absurd (flight.holds locked there rfl).2.2.1.choose_spec.2 id

theorem flight_sweeps (locked : u.Locked) (flight : Flight setup s u)
    (allowed : joins setup s u a = true) {device : DeviceInfo} {idx : Nat}
    {swept : List Channel} {v : RadioLink}
    (sweeps : Sweeps setup u a n op device idx swept v) :
    Flight setup s (v.sweep setup n op device idx swept) := by
  cases sweeps with
  | unasked due absent =>
      obtain ⟨new, rfl, rfl, sent, ⟨since, there⟩, rests⟩ := flight.due locked allowed due
      refine flight_sweep ⟨Nat.zero_le _, fun _ => rfl, [], ?_, ?_⟩ new there rests
      · exact sent.trans (List.append_nil _).symm
      · simp [queryCommands, absent]
  | answered there info =>
      obtain ⟨new, rfl, ⟨added, started, sent⟩, rests⟩ := flight.holds locked there rfl
      exact flight_sweep ⟨Nat.zero_le _, fun _ => rfl, added, started, sent.trans
        (List.append_nil _).symm⟩ new there rests
  | read there =>
      obtain ⟨new, rfl, ⟨added, started, more, sent⟩, rests⟩ := flight.holds locked there rfl
      exact flight_sweep ⟨more.2, fun blind => absurd (more.1.symm.trans blind) nofun, added,
        started, sent⟩ new there rests

theorem flight_step (locked : u.Locked) (cold : s.cache.fresh setup s.clock = false)
    (long : s.calls.length ≤ u.calls.length) (flight : Flight setup s u)
    (allowed : joins setup s u a = true) (steps : Steps setup u a t) : Flight setup s t := by
  cases steps with
  | calls op =>
      simp only [joins, Bool.and_eq_true, decide_eq_true_eq] at allowed
      obtain ⟨rfl, unreturned⟩ := allowed
      have rest : (∀ {n op point}, u.call n = some (op, point) →
          Rests s.calls.length u.clock False n op point) → ∀ {n op point},
          (u.calls ++ [(LinkOp.refresh false, LinkPoint.waiting u.clock)])[n]? = some (op, point) →
            Rests s.calls.length u.clock False n op point := by
        intro rests n op point there
        rw [List.getElem?_append] at there
        split at there
        · exact rests there
        · next late =>
            cases List.mem_singleton.mp (List.mem_of_getElem? there)
            exact ⟨long.trans (not_lt.mp late), rfl, le_rfl⟩
      cases flight with
      | before free cache clock sent rests => exact .before free cache clock sent (rest rests)
      | during held new there sent rests =>
          refine .during held new ?_ sent (rest rests)
          exact (List.getElem?_append_left (List.getElem?_eq_some_iff.mp there).1).trans there
      | after free cache clock sent new there rests =>
          have listed := List.mem_of_getElem? (List.getElem?_drop.trans
            (Nat.add_sub_cancel' new ▸ there))
          exact absurd (List.all_eq_true.mp unreturned _ listed) nofun
  | connects => exact flight.idle rfl rfl rfl le_rfl .inl fun there _ => there
  | elapses later => exact flight.idle rfl rfl rfl later .inl fun there _ => there
  | @givesUp m op since there =>
      refine flight.idle rfl rfl rfl le_rfl (fun there' => ?_) fun {n op' point} there' moved => ?_
      · rcases call_move there' with ⟨-, same⟩ | ⟨-, before⟩
        · exact .inr (Prod.mk.inj same).2
        · exact .inl before
      · have other : n ≠ m := by
          rintro rfl
          exact moved since (Prod.mk.inj (Option.some.inj (there'.symm.trans there))).2
        exact (List.getElem?_set_ne other.symm).trans there'
  | breaks there holds =>
      exact absurd ((locked.holder there).mp holds) (of_decide_eq_true allowed)
  | refuses free there | sets free there => exact absurd (flight.waits there).2 nofun
  | fails there raised =>
      rw [joins, raised] at allowed
      cases allowed
  | @fresh m since free there fresh =>
      cases flight with
      | before _ cache clock =>
          rw [stale_later cold cache clock] at fresh
          cases fresh
      | during held => exact absurd (held.symm.trans free) nofun
      | @after n device _ cache clock sent new there' rests =>
          refine .after (n := n) rfl cache clock sent new ?_ fun {n op point} there'' => ?_
          · have other : n ≠ m := by
              rintro rfl
              exact absurd (Option.some.inj (there'.symm.trans there)) nofun
            exact (List.getElem?_set_ne other.symm).trans there'
          · rcases call_move there'' with ⟨-, same⟩ | ⟨-, before⟩
            · cases same
              exact fun _ => ⟨rfl, trivial⟩
            · exact rests before
  | @asks a m op v due has =>
      obtain ⟨new, rfl, rfl, sent, ⟨since, there⟩, rests⟩ := flight.due locked allowed due
      refine .during rfl new (call_move_self there _)
        ⟨[(.sendDeviceQuery, u.clock)], ?_, ?_⟩ fun {n op point} there' => ?_
      · exact congrArg (· ++ [(Command.sendDeviceQuery, u.clock)]) sent
      · exact (if_pos has).symm
      · rcases call_move there' with ⟨rfl, same⟩ | ⟨-, before⟩
        · cases same
          exact ⟨new, rfl⟩
        · exact rests before
  | reads sweeps more =>
      have swept := flight_sweeps locked flight allowed sweeps
      rwa [sweep, if_pos more] at swept
  | stores sweeps done =>
      have swept := flight_sweeps locked flight allowed sweeps
      rwa [sweep, if_neg done] at swept

/-- Calls are not forgotten. -/
theorem calls_step (locked : s.Locked) (steps : Steps setup s a t) :
    s.calls.length ≤ t.calls.length := by
  cases steps with
  | calls => simp
  | connects | elapses => exact le_rfl
  | fresh | refuses | sets | fails | givesUp | breaks => exact (List.length_set ..).ge
  | asks due =>
      rw [(due.serves locked).same]
      exact (List.length_set ..).ge
  | reads sweeps | stores sweeps =>
      rw [(sweeps.serves locked).same]
      exact (List.length_set ..).ge

theorem flight (reached : (radioLink setup).Reachable (fun _ _ => True) s) (quiet : s.Quiet)
    (cold : s.cache.fresh setup s.clock = false)
    (path : (radioLink setup).Path (fun u a => joins setup s u a = true) s t) :
    Flight setup s t ∧ s.calls.length ≤ t.calls.length ∧ t.Locked := by
  induction path with
  | refl =>
      have locked := locked reached
      have free : s.lock = none := by
        rw [Option.eq_none_iff_forall_ne_some]
        intro n held
        obtain ⟨op, point, there⟩ := locked.known held
        obtain ⟨result, rfl⟩ := quiet there
        exact absurd ((locked.holder there).mpr held) nofun
      refine ⟨.before free rfl le_rfl rfl fun {n op point} there => ?_, le_rfl, locked⟩
      obtain ⟨result, rfl⟩ := quiet there
      cases result with
      | refreshed fresh =>
          exact fun new => absurd (List.getElem?_eq_some_iff.mp there).1 (not_lt.mpr new)
      | wrote | cancelled => trivial
  | tail _ allowed taken ih =>
      obtain ⟨flight, long, locked⟩ := ih
      have steps := link_steps taken
      exact ⟨flight_step locked cold long flight allowed steps,
        long.trans (calls_step locked steps), locked_step locked steps⟩

/-- Some of a device query and a channel sweep has been issued, and all of it once one of
the new refreshes has returned. -/
theorem single_flight (reached : (radioLink setup).Reachable (fun _ _ => True) s)
    (quiet : s.Quiet) (cold : s.cache.fresh setup s.clock = false)
    (path : (radioLink setup).Path (fun u a => joins setup s u a = true) s t) :
    ∃ device, issued s t <+: queryCommands setup ++ sweepCommands setup device ∧
      ∀ n op fresh, s.calls.length ≤ n → t.call n = some (op, .ended (.refreshed fresh)) →
        fresh = true ∧ t.cache.device = some device ∧
          issued s t = queryCommands setup ++ sweepCommands setup device := by
  have added : ∀ {commands}, t.started = s.started ++ commands →
      issued s t = commands.map (·.1) := by
    intro commands started
    rw [issued, started, List.drop_left]
  cases (flight reached quiet cold path).1 with
  | before _ _ _ sent rests =>
      refine ⟨⟨none, []⟩, ?_, fun n op fresh new there => ((rests there) new).2.elim⟩
      rw [added (sent.trans (List.append_nil _).symm)]
      exact List.nil_prefix
  | @during n point _ _ there sent rests =>
      obtain ⟨commands, started, sent⟩ := sent
      have unreturned : ∀ {device} n op fresh, s.calls.length ≤ n →
          t.call n = some (op, .ended (.refreshed fresh)) →
            fresh = true ∧ t.cache.device = some device ∧
              issued s t = queryCommands setup ++ sweepCommands setup device :=
        fun n op fresh new there => ((rests there) new).2.elim
      rw [added started] at unreturned ⊢
      cases point with
      | waiting | setting | ended => exact sent.elim
      | querying => exact ⟨⟨none, []⟩, sent ▸ List.prefix_append _ _, unreturned⟩
      | reading device idx swept =>
          obtain ⟨more, sent⟩ := sent
          refine ⟨device, ?_, unreturned⟩
          rw [sent, List.prefix_append_right_inj, sweepCommands, if_pos more.1]
          obtain ⟨rest, whole⟩ := Nat.exists_eq_add_of_le (Nat.succ_le_of_lt more.2)
          have slots : List.range (device.maxChannels.getD 0).toNat =
              List.range (idx + 1) ++ (List.range rest).map fun i => idx + 1 + i :=
            whole ▸ List.range_add
          rw [slots, List.map_append]
          exact List.prefix_append _ _
  | @after n device _ cache _ sent new there rests =>
      obtain ⟨commands, started, sent⟩ := sent
      rw [added started, sent]
      exact ⟨device, List.prefix_rfl, fun n op fresh new there => ⟨((rests there) new).1, cache, rfl⟩⟩

/-! ## The discipline -/

/-- A command of the call is on its way. -/
def OnAir (s : RadioLink) (n : Nat) : Prop :=
  ∃ op point, s.call n = some (op, point) ∧ point.holds = true

/-- In any interleaving of refreshes and writes with any answers: at most one command is on
its way, two writes start an interval apart by the difference that the code computes (so at most
one part in 2^53 less), and any number of concurrent refreshes of a cold cache issue one device
query and one sweep. -/
theorem commands_disciplined (reached : (radioLink setup).Reachable (fun _ _ => True) s) :
    (∀ n m, s.OnAir n → s.OnAir m → n = m) ∧
      s.writes.Pairwise (fun a b => setup.writeMinInterval ≤ Binary64.nearest (b - a) ∧
        setup.writeMinInterval ≤ b - a + |b - a| / 2 ^ 53) ∧
      (s.Quiet → s.cache.fresh setup s.clock = false →
        ∀ t, (radioLink setup).Path (fun u a => joins setup s u a = true) s t →
          ∃ device, issued s t <+: queryCommands setup ++ sweepCommands setup device ∧
            ∀ n op fresh, s.calls.length ≤ n → t.call n = some (op, .ended (.refreshed fresh)) →
              fresh = true ∧ t.cache.device = some device ∧
                issued s t = queryCommands setup ++ sweepCommands setup device) := by
  refine ⟨?_, (spaced reached).apart.imp fun apart => ?_,
    fun quiet cold t path => single_flight reached quiet cold path⟩
  · rintro n m ⟨op, point, there, holds⟩ ⟨op', point', there', holds'⟩
    have held := ((locked reached).holder there).mp holds
    have held' := ((locked reached).holder there').mp holds'
    exact Option.some.inj (held.symm.trans held')
  · exact ⟨apart, apart.trans (Binary64.nearest_le_add _)⟩

/-- Three tabs poll a radio with one slot. -/
def polls : List LinkAct :=
  [.call (.refresh false), .call (.refresh false), .call (.refresh false), .enter 0,
    .answer 0 (.queried (.info ⟨some 1, []⟩) 0),
    .answer 0 (.read (.info ⟨some 0, "london".toList, none⟩)), .enter 2, .enter 1]

/-- One device query and one read serve all three. -/
theorem commands_disciplined_polls : ∃ t : RadioLink, t.calls.length = 3 ∧
    (t.calls.all fun entry => entry.2.returned) = true ∧
      issued init t = [.sendDeviceQuery, .getChannel 0] := by
  obtain ⟨t, path, three, returned, device⟩ := System.reaches (radioLink plainRadio)
    (fun u a => joins plainRadio init u a = true)
    (fun t => t.calls.length = 3 ∧ (t.calls.all fun entry => entry.2.returned) = true ∧
      t.cache.device = some ⟨some 1, []⟩)
    polls (fun _ _ _ => trivial) (by decide +kernel)
  refine ⟨t, three, returned, ?_⟩
  have start : (radioLink plainRadio).Reachable (fun _ _ => True) init := System.reachable_init
  have quiet : init.Quiet := fun there => absurd (List.getElem?_nil.symm.trans there) nofun
  obtain ⟨device', -, done⟩ := (commands_disciplined start).2.2 quiet rfl t
    (path.mono fun _ _ both => both.1)
  have there : t.call 0 = some (t.calls.get ⟨0, by omega⟩) := List.getElem?_eq_getElem (by omega)
  have ended := List.all_eq_true.mp returned _ (List.mem_of_getElem? there)
  generalize t.calls.get ⟨0, by omega⟩ = entry at there ended
  obtain ⟨op, point⟩ := entry
  cases point with
  | waiting | setting | querying | reading => cases ended
  | ended result =>
      cases result with
      | wrote | cancelled => cases ended
      | refreshed fresh =>
          obtain ⟨-, same, whole⟩ := done 0 op fresh (Nat.zero_le _) there
          rw [device, Option.some.injEq] at same
          subst same
          exact whole

/-- The doubles next to 0.1 and to 5.1, which are 5 apart, rounded. -/
def tenth : ℚ := 3602879701896397 / 2 ^ 55

def fiveAndATenth : ℚ := 2871044762448691 / 2 ^ 49

/-- The second write starts when the rounded difference is the interval. -/
theorem writes_early :
    ∃ s, (radioLink { plainRadio with writeMinInterval := 5 }).Reachable (fun _ _ => True) s ∧
      s.writes = [tenth, fiveAndATenth] ∧ fiveAndATenth - tenth < 5 := by
  obtain ⟨s, reached, writes⟩ := System.reaches
    (radioLink { plainRadio with writeMinInterval := 5 }) (fun _ _ => True)
    (fun s => s.writes = [tenth, fiveAndATenth])
    [.connect true, .elapse tenth, .call (.write 0 "london".toList none (some "london".toList)),
      .enter 0, .answer 0 (.written .rejects), .answer 0 (.queried (.info ⟨some 0, []⟩) 0),
      .elapse fiveAndATenth, .call (.write 0 "paris".toList none (some "paris".toList)), .enter 1]
    (fun _ _ _ => trivial) (by decide +kernel)
  exact ⟨s, reached.mono fun _ _ _ => trivial, writes, by decide +kernel⟩

end RadioLink

end Zorkbot.Admin
