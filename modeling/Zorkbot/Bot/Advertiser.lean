/-
# Adverts

The bot advertises itself on a timer and for every `!start`, but not more than once in a
while. `Advertiser` keeps when it last sent an advert, and a caller tests that before it waits
for its turn at the send gate. The stamp is set when the send is over, so a caller may pass
the test while another is on its way, and a send that fails leaves no stamp.
-/

import Zorkbot.Bot.RollCall
import Zorkbot.Bot.SendOrder

namespace Zorkbot.Bot

open Transition

/-- `Advertiser`, with `_enabled`, `_cooldown` and `_last_sent_at`. -/
structure Advertiser where
  enabled : Bool
  cooldown : ℚ
  lastSentAt : ℚ
  deriving DecidableEq

namespace Advertiser

/-- `Advertiser(enabled=…, cooldown_seconds=…)`. -/
def init (enabled : Bool) (cooldown : ℚ) : Advertiser := ⟨enabled, cooldown, 0⟩

/-- `send_if_due` goes on to `_send`, at a reading of the clock. -/
def due (self : Advertiser) (now : ℚ) : Bool :=
  self.enabled && !decide (now - self.lastSentAt < self.cooldown)

/-- `_send` has had an answer. -/
def stamp (self : Advertiser) (now : ℚ) : Advertiser := { self with lastSentAt := now }

/-- `send_if_due` where the send takes no time and succeeds; whether an advert is sent. -/
def sendIfDue (self : Advertiser) (now : ℚ) : Bool × Advertiser :=
  if self.due now then (true, self.stamp now) else (false, self)

/-! ## Two cooldowns -/

/-- What is decided at each reading of a clock. -/
def decisions {σ : Type*} (ask : σ → ℚ → Bool × σ) : σ → List ℚ → List Bool
  | _, [] => []
  | s, now :: readings => (ask s now).1 :: decisions ask (ask s now).2 readings

/-- After a decision at the same reading the two go on alike. -/
theorem agree_from {interval : ℚ} (positive : 0 < interval) (last : ℚ) (readings : List ℚ) :
    decisions sendIfDue ⟨true, interval, last⟩ readings =
      decisions Cooldown.claim ⟨interval, some last⟩ readings := by
  induction readings generalizing last with
  | nil => rfl
  | cons now readings ih =>
      by_cases early : now - last < interval
      · have holds : sendIfDue ⟨true, interval, last⟩ now = (false, ⟨true, interval, last⟩) := by
          simp [sendIfDue, due, early]
        have refused : Cooldown.claim ⟨interval, some last⟩ now =
            (false, ⟨interval, some last⟩) := by
          simp [Cooldown.claim, Cooldown.isOpen, early, positive.not_ge]
        rw [decisions, decisions, holds, refused, ih last]
      · have sends : sendIfDue ⟨true, interval, last⟩ now = (true, ⟨true, interval, now⟩) := by
          simp [sendIfDue, due, early, stamp]
        have claims : Cooldown.claim ⟨interval, some last⟩ now =
            (true, ⟨interval, some now⟩) := by
          simp [Cooldown.claim, Cooldown.isOpen, early, positive.not_ge]
        rw [decisions, decisions, sends, claims, ih now]

/-- An advertiser and a cooldown with the same interval decide alike exactly when the first
reading of the clock is no less than the interval. -/
theorem cooldowns_agree_iff {interval : ℚ} (positive : 0 < interval) (readings : List ℚ) :
    decisions sendIfDue (init true interval) readings =
        decisions Cooldown.claim (Cooldown.init interval) readings ↔
      ∀ first, readings.head? = some first → interval ≤ first := by
  cases readings with
  | nil => simp [decisions]
  | cons now readings =>
      have claims : Cooldown.claim (Cooldown.init interval) now = (true, ⟨interval, some now⟩) := by
        simp [Cooldown.claim, Cooldown.isOpen, Cooldown.init, positive.not_ge]
      rw [decisions, decisions, claims]
      constructor
      · intro same first is
        obtain rfl := Option.some.inj is
        have sends := (List.cons.inj same).1
        by_contra early
        rw [sendIfDue, if_neg (by simp [due, init, not_le.mp early])] at sends
        cases sends
      · intro late
        have sends : sendIfDue (init true interval) now = (true, ⟨true, interval, now⟩) := by
          simp [sendIfDue, due, init, stamp, late now rfl]
        rw [sends, agree_from positive]

/-- Ten minutes after the machine booted, with a cooldown of five. -/
theorem cooldowns_agree_later :
    decisions sendIfDue (init true 300) [600, 700, 901] =
      decisions Cooldown.claim (Cooldown.init 300) [600, 700, 901] := by
  apply (cooldowns_agree_iff (by decide) _).mpr
  intro first is
  obtain rfl := Option.some.inj is
  decide

/-- A minute after the machine booted the first advert is held back. -/
theorem cooldowns_disagree_at_boot :
    decisions sendIfDue (init true 300) [60] = [false] ∧
      decisions Cooldown.claim (Cooldown.init 300) [60] = [true] := by
  decide +kernel

end Advertiser

/-! ## Adverts at the send gate -/

/-- An advert, as `send_advert` hands it to the gate. -/
def advertPacket : Packet := ⟨.dm, none, none, 0, false, false, none⟩

/-- The send gate with an advertiser whose adverts go through it. -/
structure Beacon where
  gate : SendGate
  advertiser : Advertiser
  /-- The calls of the gate that `_send` awaits or has awaited. -/
  adverts : List Nat

/-- The beginnings of the transmissions of a gate, newest first. -/
def begun : List Radio → List (Nat × ℚ)
  | [] => []
  | .started i t :: log => (i, t) :: begun log
  | _ :: log => begun log

namespace Beacon

def init (enabled : Bool) (cooldown : ℚ) : Beacon := ⟨.init, .init enabled cooldown, []⟩

/-- `_send` up to the await. A full queue answers at once, and that is stamped, too. -/
def send (cfg : SendConfig) (s : Beacon) : Beacon :=
  let gate := s.gate.send cfg advertPacket
  if gate.stageOf s.gate.calls.length = some .ended then
    { s with gate := gate, advertiser := s.advertiser.stamp gate.now }
  else { s with gate := gate, adverts := s.adverts ++ [s.gate.calls.length] }

/-- `send_if_due` up to the await. -/
def sendIfDue (cfg : SendConfig) (s : Beacon) : Beacon :=
  if s.advertiser.due s.gate.now then s.send cfg else s

/-- What the end of a call at the gate is for the advertiser: only an answer is stamped. -/
def answered (s : Beacon) : SendGate.Act → Bool
  | .finish i (.returned _) => decide (i ∈ s.adverts)
  | _ => false

inductive Act
  /-- The timer or a `!start` calls `send_if_due`. -/
  | sendIfDue
  /-- Anything else at the gate, other senders included. -/
  | gate (act : SendGate.Act)
  deriving DecidableEq

def step (cfg : SendConfig) (s : Beacon) : Act → Option Beacon
  | .sendIfDue => some (s.sendIfDue cfg)
  | .gate act =>
      (s.gate.step cfg act).map fun gate =>
        { s with
          gate := gate
          advertiser := if s.answered act then s.advertiser.stamp gate.now else s.advertiser }

/-- When the transmission of an advert began, newest first. -/
def starts (s : Beacon) : List ℚ :=
  ((begun s.gate.log).filter (·.1 ∈ s.adverts)).map (·.2)

/-- The advert has passed the test and its call has not ended. -/
def flying (s : Beacon) (i : Nat) : Bool :=
  decide (i ∈ s.adverts) && decide (s.gate.stageOf i ≠ some .ended)

/-- A caller passes the test only when no other is on its way, and no advert whose
transmission has begun ends without an answer. -/
def orderly (s : Beacon) : Act → Bool
  | .sendIfDue => !s.advertiser.due s.gate.now || !s.adverts.any s.flying
  | .gate (.finish i .raised) => decide (i ∉ s.adverts)
  | .gate (.cancel i) => !(decide (i ∈ s.adverts) && decide (s.gate.stageOf i = some .sending))
  | .gate _ => true

end Beacon

/-- The runs of the advertiser at the send gate. -/
def beacon (cfg : SendConfig) (enabled : Bool) (cooldown : ℚ) : System Beacon Beacon.Act :=
  ⟨.init enabled cooldown, Beacon.step cfg⟩

/-! ## A call at the gate -/

/-- Where a call is, as far as its transmission is concerned. -/
inductive Airing
  | queued
  | onAir
  | past
  deriving DecidableEq

def Stage.airing : Stage → Airing
  | .waiting | .quiet => .queued
  | .sending => .onAir
  | .ended => .past

namespace SendGate

variable {cfg : SendConfig} {s t : SendGate} {a : Act}

def airingOf (s : SendGate) (i : Nat) : Option Airing := (s.stageOf i).map Stage.airing

theorem airingOf_of_stage {i : Nat} {stage : Stage} (at_ : s.stageOf i = some stage) :
    s.airingOf i = some stage.airing := by
  rw [airingOf, at_, Option.map_some]

theorem airingOf_update {i : Nat} {x : Stage}
    (stages : ∀ j, t.stageOf j = if i = j then some x else s.stageOf j) (j : Nat) :
    t.airingOf j = if i = j then some x.airing else s.airingOf j := by
  rw [airingOf, stages]
  split
  · rfl
  · rfl

/-- What a step is for the calls that were made before it. -/
inductive Moves (s : SendGate) (a : Act) (t : SendGate) : Prop
  | stays (phases : ∀ j < s.calls.length, t.airingOf j = s.airingOf j)
      (log : begun t.log = begun s.log) (other : ∀ j outcome, a ≠ .finish j outcome)
  | starts (i : Nat) (was : s.airingOf i = some .queued)
      (phases : ∀ j, t.airingOf j = if i = j then some .onAir else s.airingOf j)
      (log : begun t.log = (i, s.now) :: begun s.log) (other : ∀ j outcome, a ≠ .finish j outcome)
  | ends (i : Nat) (was : s.airingOf i = some .queued ∧ a = .cancel i ∨
        s.airingOf i = some .onAir ∧ (a = .cancel i ∨ ∃ outcome, a = .finish i outcome))
      (phases : ∀ j, t.airingOf j = if i = j then some .past else s.airingOf j)
      (log : begun t.log = begun s.log)

theorem moves_append {c : Sending} (calls : t.calls = s.calls ++ [c]) (log : t.log = s.log)
    (other : ∀ j outcome, a ≠ .finish j outcome) : Moves s a t := by
  refine .stays (fun j early => ?_) (congrArg begun log) other
  rw [airingOf, stageOf_append calls, if_neg (Nat.ne_of_lt early)]
  rfl

theorem moves_start {i : Nat} {u : SendGate} {stage : Stage} (at_ : s.stageOf i = some stage)
    (queued : stage.airing = .queued) (now : u.now = s.now) (log : u.log = s.log)
    (stages : ∀ j, (u.start i).stageOf j = if i = j then some .sending else s.stageOf j)
    (other : ∀ j outcome, a ≠ .finish j outcome) : Moves s a (u.start i) := by
  refine .starts i ?_ (airingOf_update stages) ?_ other
  · rw [airingOf_of_stage at_, queued]
  · rw [← now, ← log]
    rfl

theorem send_moves (locked : s.Locked) (steps : Steps cfg s a t) : Moves s a t := by
  cases steps with
  | refuses => exact moves_append rfl rfl nofun
  | admits => exact moves_append rfl rfl nofun
  | @acquires i _ free waits looks =>
      have at_ := locked.queued.mp waits
      have grabbed (j : Nat) : (s.grab i).stageOf j =
          if i = j then some .quiet else s.stageOf j :=
        stageOf_modify (t := s.grab i) at_ rfl (fun _ => rfl) j
      cases looks with
      | starts quiet =>
          refine moves_start at_ rfl rfl rfl (fun j => ?_) nofun
          have here : (s.grab i).stageOf i = some .quiet := by rw [grabbed, if_pos rfl]
          rw [stageOf_start here, grabbed]
          split
          · rfl
          · rfl
      | sleeps =>
          refine .stays (fun j _ => ?_) rfl nofun
          rw [airingOf_update grabbed]
          split
          · next same => rw [← same, airingOf_of_stage at_]; rfl
          · rfl
  | @wakes i _ at_ looks =>
      cases looks with
      | starts quiet => exact moves_start at_ rfl rfl rfl (stageOf_start at_) nofun
      | sleeps => exact .stays (fun _ _ => rfl) rfl nofun
  | @finishes i _ u at_ ending told =>
      have stamped (j : Nat) : (u.stamp i).stageOf j = s.stageOf j := by
        unfold stageOf
        rw [← told.calls]
        rfl
      refine .ends i (.inr ⟨airingOf_of_stage at_, ending⟩)
        (airingOf_update (x := .ended) fun j => ?_) ?_
      · rw [stageOf_release ((stamped i).trans at_), stamped]
      · rw [← told.log]
        rfl
  | abandons at_ =>
      exact .ends _ (.inl ⟨airingOf_of_stage at_, rfl⟩) (airingOf_update (stageOf_abandon at_)) rfl
  | withdraws at_ =>
      exact .ends _ (.inl ⟨airingOf_of_stage at_, rfl⟩) (airingOf_update (stageOf_release at_)) rfl
  | hears => exact .stays (fun _ _ => rfl) rfl nofun
  | ticks => exact .stays (fun _ _ => rfl) rfl nofun

theorem past_iff {i : Nat} : s.airingOf i = some .past ↔ s.stageOf i = some .ended := by
  unfold airingOf
  cases s.stageOf i with
  | none => simp
  | some stage => cases stage <;> simp [Stage.airing]

theorem onAir_iff {i : Nat} : s.airingOf i = some .onAir ↔ s.stageOf i = some .sending := by
  unfold airingOf
  cases s.stageOf i with
  | none => simp
  | some stage => cases stage <;> simp [Stage.airing]

theorem now_le (steps : Steps cfg s a t) : s.now ≤ t.now := by
  cases steps with
  | acquires free waits looks | wakes at_ looks => cases looks <;> exact le_refl _
  | finishes at_ ending told => exact told.now.ge
  | ticks later => exact later
  | _ => exact le_refl _

theorem length_le (steps : Steps cfg s a t) : s.calls.length ≤ t.calls.length := by
  cases steps with
  | refuses | admits => exact (List.prefix_append _ _).length_le
  | acquires free waits looks =>
      cases looks <;> simp [start, grab, setStage]
  | wakes at_ looks => cases looks <;> simp [start]
  | finishes at_ ending told => simp [release, setStage, stamp, told.calls]
  | abandons | withdraws => simp [abandon, release, setStage]
  | hears | ticks => exact le_refl _

end SendGate

/-! ## Spacing -/

namespace Beacon

variable {cfg : SendConfig} {enabled : Bool} {cooldown : ℚ} {s t : Beacon}

/-- What an orderly run keeps: at most one advert is on its way. Until its transmission begins
the cooldown has passed since the stamp, and the stamp is no older than the last beginning. -/
structure Ordered (cooldown : ℚ) (s : Beacon) : Prop where
  configured : s.advertiser.cooldown = cooldown
  known : ∀ i ∈ s.adverts, i < s.gate.calls.length
  logged : ∀ e ∈ begun s.gate.log, e.1 < s.gate.calls.length
  one : ∀ i ∈ s.adverts, s.gate.airingOf i ≠ some .past →
    ∀ j ∈ s.adverts, s.gate.airingOf j ≠ some .past → i = j
  behind : ∀ u ∈ s.starts, u ≤ s.gate.now
  settled : (∀ i ∈ s.adverts, s.gate.airingOf i ≠ some .onAir) →
    ∀ u ∈ s.starts, u ≤ s.advertiser.lastSentAt
  due : ∀ i ∈ s.adverts, s.gate.airingOf i = some .queued →
    s.advertiser.lastSentAt + cooldown ≤ s.gate.now
  spaced : s.starts.Pairwise fun later earlier => cooldown ≤ later - earlier

theorem flying_iff {i : Nat} :
    s.flying i = true ↔ i ∈ s.adverts ∧ s.gate.airingOf i ≠ some .past := by
  simp [flying, SendGate.past_iff]

/-- The advertiser is told of the gate's step. -/
theorem answered_of_other {act : SendGate.Act} (other : ∀ j outcome, act ≠ .finish j outcome) :
    s.answered act = false := by
  cases act with
  | finish j outcome => exact absurd rfl (other j outcome)
  | _ => rfl

/-- A step of the gate that no advert takes part in. -/
theorem Ordered.stays (ordered : s.Ordered cooldown) (adverts : t.adverts = s.adverts)
    (advertiser : t.advertiser = s.advertiser)
    (phases : ∀ i ∈ s.adverts, t.gate.airingOf i = s.gate.airingOf i) (starts : t.starts = s.starts)
    (logged : ∀ e ∈ begun t.gate.log, e.1 < t.gate.calls.length)
    (now : s.gate.now ≤ t.gate.now) (length : s.gate.calls.length ≤ t.gate.calls.length) :
    t.Ordered cooldown := by
  constructor
  · rw [advertiser]
    exact ordered.configured
  · rw [adverts]
    exact fun i there => (ordered.known i there).trans_le length
  · exact logged
  · rw [adverts]
    intro i there flies j there' flies'
    rw [phases i there] at flies
    rw [phases j there'] at flies'
    exact ordered.one i there flies j there' flies'
  · rw [starts]
    exact fun u there => (ordered.behind u there).trans now
  · rw [starts, adverts, advertiser]
    intro none
    exact ordered.settled fun i there => phases i there ▸ none i there
  · rw [adverts, advertiser]
    intro i there queued
    exact (ordered.due i there (phases i there ▸ queued)).trans now
  · rw [starts]
    exact ordered.spaced

/-- The transmission of a call begins. -/
theorem Ordered.begins (ordered : s.Ordered cooldown) {i : Nat} {g : SendGate}
    (was : s.gate.airingOf i = some .queued)
    (phases : ∀ j, g.airingOf j = if i = j then some .onAir else s.gate.airingOf j)
    (log : begun g.log = (i, s.gate.now) :: begun s.gate.log) (now : s.gate.now ≤ g.now)
    (length : s.gate.calls.length ≤ g.calls.length) (early : i < s.gate.calls.length) :
    ({ s with gate := g } : Beacon).Ordered cooldown := by
  have logged : ∀ e ∈ begun g.log, e.1 < g.calls.length := by
    rw [log]
    intro e there
    rcases List.mem_cons.mp there with rfl | there
    · exact early.trans_le length
    · exact (ordered.logged e there).trans_le length
  by_cases mine : i ∈ s.adverts
  · have queued : s.gate.airingOf i ≠ some .past := by simp [was]
    have alone : ∀ j ∈ s.adverts, s.gate.airingOf j ≠ some .past → j = i :=
      fun j there flies => ordered.one j there flies i mine queued
    have quiet : ∀ j ∈ s.adverts, s.gate.airingOf j ≠ some .onAir := by
      intro j there onAir
      obtain rfl := alone j there (by simp [onAir])
      rw [was] at onAir
      cases onAir
    have starts : ({ s with gate := g } : Beacon).starts = s.gate.now :: s.starts := by
      simp [Beacon.starts, log, mine]
    have landed {j : Nat} (there : j ∈ s.adverts) (other : i ≠ j) :
        g.airingOf j = some .past := by
      rw [phases, if_neg other]
      by_contra flies
      exact other (alone j there flies).symm
    constructor
    · exact ordered.configured
    · exact fun j there => (ordered.known j there).trans_le length
    · exact logged
    · intro j there flies k there' flies'
      have first : i = j := not_imp_comm.mp (landed there) flies
      have second : i = k := not_imp_comm.mp (landed there') flies'
      exact first.symm.trans second
    · rw [starts]
      intro u there
      rcases List.mem_cons.mp there with rfl | there
      · exact now
      · exact (ordered.behind u there).trans now
    · intro none
      exact absurd (by rw [phases, if_pos rfl]) (none i mine)
    · intro j there later
      change g.airingOf j = _ at later
      by_cases same : i = j
      · rw [phases, if_pos same] at later
        cases later
      · rw [landed there same] at later
        cases later
    · rw [starts]
      refine .cons (fun u there => ?_) ordered.spaced
      have passed := ordered.due i mine was
      have stamped := ordered.settled quiet u there
      linarith
  · refine ordered.stays (t := { s with gate := g }) rfl rfl ?_ ?_ logged now length
    · intro j there
      change g.airingOf j = _
      rw [phases, if_neg]
      exact fun same => mine (same ▸ there)
    · simp [Beacon.starts, log, mine]

/-- A call ends; if it is an advert whose transmission has begun, it is stamped. -/
theorem Ordered.ends (ordered : s.Ordered cooldown) {i : Nat} {g : SendGate} {stamped : Bool}
    (flew : s.gate.airingOf i ≠ some .past)
    (phases : ∀ j, g.airingOf j = if i = j then some .past else s.gate.airingOf j)
    (log : begun g.log = begun s.gate.log) (now : s.gate.now ≤ g.now)
    (length : s.gate.calls.length ≤ g.calls.length)
    (stamps : i ∈ s.adverts → s.gate.airingOf i = some .onAir → stamped = true)
    (own : stamped = true → i ∈ s.adverts) :
    ({ s with
        gate := g
        advertiser := if stamped then s.advertiser.stamp g.now else s.advertiser } :
      Beacon).Ordered cooldown := by
  have logged : ∀ e ∈ begun g.log, e.1 < g.calls.length :=
    fun e there => (ordered.logged e (log ▸ there)).trans_le length
  have same : (begun g.log).filter (·.1 ∈ s.adverts) = (begun s.gate.log).filter (·.1 ∈ s.adverts) :=
    by rw [log]
  have starts (self : Advertiser) : ({ s with gate := g, advertiser := self } : Beacon).starts =
      s.starts := congrArg (List.map Prod.snd) same
  by_cases mine : i ∈ s.adverts
  · have alone : ∀ j ∈ s.adverts, s.gate.airingOf j ≠ some .past → j = i :=
      fun j there flies => ordered.one j there flies i mine flew
    have landed : ∀ j ∈ s.adverts, g.airingOf j = some .past := by
      intro j there
      rw [phases]
      split
      · rfl
      · next other =>
          by_contra flies
          exact other (alone j there flies).symm
    constructor
    · cases stamped <;> exact ordered.configured
    · exact fun j there => (ordered.known j there).trans_le length
    · exact logged
    · exact fun j there flies => absurd (landed j there) flies
    · rw [starts]
      exact fun u there => (ordered.behind u there).trans now
    · rw [starts]
      intro _ u there
      cases stamped with
      | true => exact (ordered.behind u there).trans now
      | false =>
          apply ordered.settled _ u there
          intro j advert onAir
          obtain rfl := alone j advert (by simp [onAir])
          cases stamps mine onAir
    · intro j there later
      have past := landed j there
      change g.airingOf j = _ at later
      rw [past] at later
      cases later
    · rw [starts]
      exact ordered.spaced
  · have plain : stamped = false := by
      by_contra is
      exact mine (own (Bool.eq_true_of_not_eq_false is))
    subst plain
    refine ordered.stays (t := { s with gate := g }) rfl rfl ?_ (starts _) logged now length
    intro j there
    change g.airingOf j = _
    rw [phases, if_neg]
    exact fun same => mine (same ▸ there)

/-- Nobody is on the way when a caller passes the test. -/
theorem Ordered.sends (ordered : s.Ordered cooldown) (due : s.advertiser.due s.gate.now = true)
    (alone : ∀ i ∈ s.adverts, s.gate.airingOf i = some .past) : (s.send cfg).Ordered cooldown := by
  have quiet : ∀ i ∈ s.adverts, s.gate.airingOf i ≠ some .onAir := by
    intro i there onAir
    rw [alone i there] at onAir
    cases onAir
  have passed : s.advertiser.lastSentAt + cooldown ≤ s.gate.now := by
    rw [Advertiser.due, Bool.and_eq_true, Bool.not_eq_true', decide_eq_false_iff_not, not_lt,
      ordered.configured] at due
    linarith [due.2]
  -- the calls made before are where they were
  have still {c : Sending} {g : SendGate} (calls : g.calls = s.gate.calls ++ [c]) {i : Nat}
      (there : i ∈ s.adverts) : g.airingOf i = some .past := by
    rw [SendGate.airingOf, SendGate.stageOf_append calls,
      if_neg (Nat.ne_of_lt (ordered.known i there))]
    exact alone i there
  have logged {c : Sending} {g : SendGate} (calls : g.calls = s.gate.calls ++ [c])
      (log : g.log = s.gate.log) : ∀ e ∈ begun g.log, e.1 < g.calls.length := by
    rw [log, calls, List.length_append]
    exact fun e there => (ordered.logged e there).trans_le (Nat.le_add_right _ _)
  by_cases full : cfg.maxSendQueueDepth ≤ s.gate.depth
  · have calls : (s.gate.refuse advertPacket).calls =
        s.gate.calls ++ [⟨advertPacket, .ended, 0, 1⟩] := rfl
    have sent : s.send cfg = { s with
        gate := s.gate.refuse advertPacket
        advertiser := s.advertiser.stamp s.gate.now } := by
      unfold send
      rw [show s.gate.send cfg advertPacket = s.gate.refuse advertPacket from if_pos full]
      exact if_pos (by rw [SendGate.stageOf_append calls, if_pos rfl])
    rw [sent]
    constructor
    · exact ordered.configured
    · intro i there
      exact (ordered.known i there).trans_le (by simp [calls])
    · exact logged calls rfl
    · exact fun i there flies => absurd (still calls there) flies
    · exact ordered.behind
    · exact fun _ => ordered.behind
    · intro i there queued
      have past := still calls there
      rw [past] at queued
      cases queued
    · exact ordered.spaced
  · have calls : (s.gate.accept advertPacket).calls =
        s.gate.calls ++ [⟨advertPacket, .waiting, 0, 0⟩] := rfl
    have fresh : (s.gate.accept advertPacket).stageOf s.gate.calls.length = some .waiting := by
      rw [SendGate.stageOf_append calls, if_pos rfl]
    have sent : s.send cfg = { s with
        gate := s.gate.accept advertPacket
        adverts := s.adverts ++ [s.gate.calls.length] } := by
      unfold send
      rw [show s.gate.send cfg advertPacket = s.gate.accept advertPacket from if_neg full]
      exact if_neg (by rw [fresh]; simp)
    -- what began before belongs to other calls
    have starts : (s.send cfg).starts = s.starts := by
      rw [sent]
      change ((begun s.gate.log).filter _).map _ = ((begun s.gate.log).filter _).map _
      congr 1
      apply List.filter_congr
      intro e there
      have other := (ordered.logged e there).ne
      simp [other]
    rw [sent] at starts ⊢
    have flies : ∀ i ∈ s.adverts ++ [s.gate.calls.length],
        (s.gate.accept advertPacket).airingOf i ≠ some .past → i = s.gate.calls.length := by
      intro i there flies
      rcases List.mem_append.mp there with old | new
      · exact absurd (still calls old) flies
      · exact List.mem_singleton.mp new
    constructor
    · exact ordered.configured
    · intro i there
      change i < (s.gate.accept advertPacket).calls.length
      rw [calls, List.length_append, List.length_singleton]
      rcases List.mem_append.mp there with old | new
      · exact (ordered.known i old).trans (Nat.lt_succ_self _)
      · exact List.mem_singleton.mp new ▸ Nat.lt_succ_self _
    · exact logged calls rfl
    · intro i there up j there' up'
      exact (flies i there up).trans (flies j there' up').symm
    · rw [starts]
      exact ordered.behind
    · rw [starts]
      exact fun _ => ordered.settled quiet
    · exact fun _ _ _ => passed
    · rw [starts]
      exact ordered.spaced

theorem Ordered.gate (ordered : s.Ordered cooldown) (locked : s.gate.Locked)
    {act : SendGate.Act} (orderly : s.orderly (.gate act) = true) {g : SendGate}
    (taken : s.gate.step cfg act = some g) :
    ({ s with
        gate := g
        advertiser := if s.answered act then s.advertiser.stamp g.now else s.advertiser } :
      Beacon).Ordered cooldown := by
  have steps := SendGate.send_steps taken
  have now := SendGate.now_le steps
  have length := SendGate.length_le steps
  cases SendGate.send_moves locked steps with
  | stays phases log other =>
      rw [answered_of_other other]
      refine ordered.stays (t := { s with gate := g }) rfl rfl ?_ ?_ ?_ now length
      · exact fun i there => phases i (ordered.known i there)
      · change ((begun g.log).filter _).map _ = _
        rw [log]
        rfl
      · exact fun e there => (ordered.logged e (log ▸ there)).trans_le length
  | starts i was phases log other =>
      rw [answered_of_other other]
      obtain ⟨stage, at_, -⟩ := Option.map_eq_some_iff.mp was
      exact ordered.begins was phases log now length (SendGate.stageOf_lt at_)
  | ends i was phases log =>
      refine ordered.ends ?_ phases log now length ?_ ?_
      · rcases was with ⟨queued, -⟩ | ⟨onAir, -⟩
        · simp [queued]
        · simp [onAir]
      · intro mine onAir
        rcases was with ⟨queued, -⟩ | ⟨-, rfl | ⟨outcome, rfl⟩⟩
        · rw [queued] at onAir
          cases onAir
        · have at_ := SendGate.onAir_iff.mp onAir
          simp [Beacon.orderly, mine, at_] at orderly
        · cases outcome with
          | returned => simp [answered, mine]
          | raised => simp [Beacon.orderly, mine] at orderly
      · intro answered
        rcases was with ⟨-, rfl⟩ | ⟨-, rfl | ⟨outcome, rfl⟩⟩
        · cases answered
        · cases answered
        · cases outcome with
          | returned => simpa [Beacon.answered] using answered
          | raised => cases answered

theorem Ordered.tested (ordered : s.Ordered cooldown) (orderly : s.orderly .sendIfDue = true) :
    (s.sendIfDue cfg).Ordered cooldown := by
  unfold sendIfDue
  split
  · next due =>
      apply ordered.sends due
      intro i there
      by_contra flies
      have up := flying_iff.mpr ⟨there, flies⟩
      rw [Beacon.orderly, due, Bool.not_true, Bool.false_or, Bool.not_eq_true',
        List.any_eq_false] at orderly
      exact orderly i there up
  · exact ordered

theorem locked_sendIfDue (locked : s.gate.Locked) : (s.sendIfDue cfg).gate.Locked := by
  have taken : s.gate.step cfg (.send advertPacket) = some (s.gate.send cfg advertPacket) := rfl
  have sent : (s.gate.send cfg advertPacket).Locked :=
    SendGate.locked_step locked (SendGate.send_steps taken)
  unfold sendIfDue send
  split
  · simp only []
    split
    · exact sent
    · exact sent
  · exact locked

theorem ordered_step {a : Act} (locked : s.gate.Locked) (ordered : s.Ordered cooldown)
    (orderly : s.orderly a = true) (taken : s.step cfg a = some t) :
    t.gate.Locked ∧ t.Ordered cooldown := by
  cases a with
  | sendIfDue =>
      simp only [step, Option.some.injEq] at taken
      subst taken
      exact ⟨locked_sendIfDue locked, ordered.tested orderly⟩
  | gate act =>
      simp only [step, Option.map_eq_some_iff] at taken
      obtain ⟨g, moved, rfl⟩ := taken
      exact ⟨SendGate.locked_step locked (SendGate.send_steps moved),
        ordered.gate locked orderly moved⟩

theorem ordered_init (enabled : Bool) (cooldown : ℚ) : (init enabled cooldown).Ordered cooldown where
  configured := rfl
  known := nofun
  logged := nofun
  one := nofun
  behind := nofun
  settled := fun _ => nofun
  due := nofun
  spaced := .nil

/-- In a run where no caller passes the test while an advert is on its way, and every advert
whose transmission has begun is answered, two of them begin no less than the cooldown apart. -/
theorem adverts_are_spaced
    (reached : (beacon cfg enabled cooldown).Reachable (fun s a => s.orderly a = true) s) :
    s.starts.Pairwise fun later earlier => cooldown ≤ later - earlier := by
  have both : s.gate.Locked ∧ s.Ordered cooldown := by
    apply reached.invariant (motive := fun s => s.gate.Locked ∧ s.Ordered cooldown)
    · have fresh : (sendGate cfg).Reachable (fun _ _ => True) (sendGate cfg).init :=
        System.reachable_init
      exact ⟨SendGate.locked fresh, ordered_init enabled cooldown⟩
    · rintro s a t - ⟨locked, ordered⟩ orderly taken
      exact ordered_step locked ordered orderly taken
  exact both.2.spaced

/-- An advert is sent at once and answered. -/
def advertise (now : ℚ) (i : Nat) : List Act :=
  [.gate (.tick now), .sendIfDue, .gate (.acquire i), .gate (.finish i (.returned true))]

/-- The timer and a `!start` ten minutes later. -/
theorem adverts_are_spaced_twice :
    ∃ s : Beacon, s.starts = [1600, 1000] ∧
      s.starts.Pairwise fun later earlier => 300 ≤ later - earlier := by
  obtain ⟨s, reached, starts⟩ := System.reaches (beacon SendGate.twoSeconds true 300)
    (fun s a => s.orderly a = true) (fun s => s.starts = [1600, 1000])
    (advertise 1000 0 ++ advertise 1600 1) (fun _ _ _ => trivial) (by decide +kernel)
  exact ⟨s, starts, adverts_are_spaced (reached.mono fun _ _ both => both.1)⟩

/-- Two players start games at the same time, and each of them is advertised for. -/
theorem adverts_two_seconds_apart :
    ∃ s : Beacon, (beacon SendGate.twoSeconds true 300).Reachable (fun _ _ => True) s ∧
      s.starts = [1002, 1000] := by
  obtain ⟨s, reached, starts⟩ := System.reaches (beacon SendGate.twoSeconds true 300)
    (fun _ _ => True) (fun s => s.starts = [1002, 1000])
    [.gate (.tick 1000), .sendIfDue, .sendIfDue, .gate (.acquire 0),
      .gate (.finish 0 (.returned true)), .gate (.tick 1002), .gate (.acquire 1)]
    (fun _ _ _ => trivial) (by decide +kernel)
  exact ⟨s, reached.mono fun _ _ _ => trivial, starts⟩

end Beacon

end Zorkbot.Bot
