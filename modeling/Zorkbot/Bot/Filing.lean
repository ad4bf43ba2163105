/-
# Records in hand

Handlers and fan-out coroutines hold on to records while others change the registry.
What they rely on stays: a record keeps its number, and a coroutine is in the queue
of the session whose record it holds. What is queued is queued in one order, and no
coroutine is awaited before one that was queued earlier for the same session has
ended.
-/

import Zorkbot.Bot.Consistency
import Zorkbot.Bot.FanoutOrder

namespace Zorkbot.Bot

open Transition

universe u

/-! ## The order of the fan-out -/

namespace Fanout

variable {γ : Type u} {s t : Fanout γ}

@[simp]
theorem accepted_fanout (k : Int) (coro : γ) (s : Fanout γ) :
    (s.fanout k coro).accepted = s.accepted ++ [⟨k, coro, s.accepted.length⟩] := by
  unfold Fanout.fanout
  cases s.queues.get k <;> dsimp only <;> split <;> rfl

theorem accepted_of_step {a : Act γ} (other : ∀ k coro, a ≠ .fanout k coro)
    (taken : s.step a = some t) : t.accepted = s.accepted := by
  have turned : ∀ (s : Fanout γ) n q, (s.turn n q).accepted = s.accepted := by
    intro s n q
    unfold turn
    split <;> rfl
  cases a with
  | fanout k coro => exact absurd rfl (other k coro)
  | begin n =>
      simp only [step] at taken
      split at taken
      · split at taken <;> simp only [Option.some.injEq] at taken <;> subst taken
        · exact turned s _ _
        · rfl
      · cases taken
  | finish n outcome =>
      simp only [step] at taken
      split at taken
      · simp only [Option.some.injEq] at taken
        subst taken
        exact turned (s.ended _) _ _
      · cases taken
  | callback n =>
      simp only [step] at taken
      split at taken
      · simp only [Option.some.injEq] at taken
        subst taken
        unfold onFanoutDone
        split
        · rfl
        · split <;> rfl
      · cases taken

/-- A coroutine was awaited. -/
def Begun (s : Fanout γ) (j : Job γ) : Prop :=
  j ∈ s.finished ∨ ∃ n k q, s.workers.task n = some (k, .running q j)

theorem Begun.hire {j : Job γ} (begun : s.Begun j) {k : Int}
    (workers : t.workers = s.workers.hire k .created) (finished : t.finished = s.finished) :
    t.Begun j := by
  rcases begun with ended | ⟨n, k', q, there⟩
  · exact .inl (finished ▸ ended)
  · have early : n < s.workers.tasks.length := (List.getElem?_eq_some_iff.mp there).1
    refine .inr ⟨n, k', q, ?_⟩
    rw [workers, Roster.task_hire, if_neg (Nat.ne_of_lt early)]
    exact there

/-- A worker goes on from where it does not await this coroutine, or has ended it. -/
theorem Begun.move {j : Job γ} (begun : s.Begun j) {n : Nat} {w : Consumer γ}
    (workers : ∀ m, t.workers.task m = (s.workers.move n w).task m)
    (finished : s.finished ⊆ t.finished)
    (other : ∀ k q, s.workers.task n = some (k, .running q j) → j ∈ t.finished) : t.Begun j := by
  rcases begun with ended | ⟨n', k, q, there⟩
  · exact .inl (finished ended)
  · by_cases same : n = n'
    · subst same
      exact .inl (other k q there)
    · refine .inr ⟨n', k, q, ?_⟩
      rw [workers, Roster.task_move, if_neg same]
      exact there

theorem begun_step (sound : s.Sound) {a : Act γ} (taken : s.step a = some t) {j : Job γ}
    (begun : s.Begun j) : t.Begun j := by
  cases fanout_steps sound taken with
  | opens | restarts => exact begun.hire rfl rfl
  | queues => exact begun
  | begins there | closes there | ignores there =>
      refine begun.move (fun _ => rfl) (fun _ ended => ended) fun k q running => ?_
      rw [there] at running
      cases running
  | rests there | continues there =>
      refine begun.move (fun _ => rfl) (fun _ ended => List.mem_append_left _ ended)
        fun k q running => ?_
      rw [there] at running
      cases running
      exact List.mem_append_right _ (List.mem_singleton_self _)

theorem call_lt (reached : (fanouts γ).Reachable (fun _ _ => True) s) :
    s.accepted.Pairwise fun x y => x.call < y.call := by
  rw [← List.pairwise_map, accepted_calls reached]
  exact List.pairwise_lt_range

/-- What has ended was queued before what is awaited now. -/
theorem finished_before (reached : (fanouts γ).Reachable (fun _ _ => True) s) {n q : Nat} {k : Int}
    {i j : Job γ} (there : s.workers.task n = some (k, .running q j)) (ended : i ∈ s.finished)
    (same : i.session = j.session) : i.call < j.call := by
  have sound := Fanout.sound reached
  have inHand : s.inHand k = some j := sound.inHand there rfl
  have own : j.session = k := sound.own k j (.inr inHand)
  have order := acceptedOf_eq reached k
  rw [inHand] at order
  have calls : (s.acceptedOf k).Pairwise fun x y => x.call < y.call := (call_lt reached).filter _
  rw [order, List.append_assoc] at calls
  apply (List.pairwise_append.mp calls).2.2 i _ j
  · simp
  · simp [finishedOf, ended, same, own]

/-- A coroutine that was awaited was queued. -/
theorem Begun.accepted (reached : (fanouts γ).Reachable (fun _ _ => True) s) {j : Job γ}
    (begun : s.Begun j) : j ∈ s.accepted := by
  have listed : j ∈ s.acceptedOf j.session := by
    rw [acceptedOf_eq reached]
    rcases begun with ended | ⟨n, k, q, there⟩
    · simp [finishedOf, ended]
    · have sound := Fanout.sound reached
      have inHand : s.inHand k = some j := sound.inHand there rfl
      have own : j.session = k := sound.own k j (.inr inHand)
      simp [own, inHand]
  exact List.mem_of_mem_filter listed

end Fanout

/-! ## Records and their numbers -/

namespace SessionState

variable {s t : SessionState}

/-- The record is the one of a session. -/
def Is (s : SessionState) (r : Nat) (k : Int) : Prop :=
  r < s.records.length ∧ (s.record r).num = k

theorem Consistent.is_unique {maxWatchers : Int} (consistent : s.Consistent maxWatchers) {r r' : Nat}
    {k : Int} (first : s.Is r k) (second : s.Is r' k) : r = r' := by
  obtain ⟨bound, num⟩ := first
  obtain ⟨bound', num'⟩ := second
  have one : (s.records.map (·.num))[r]? = some k := by
    rw [← num]
    simp [record, bound]
  have two : (s.records.map (·.num))[r']? = some k := by
    rw [← num']
    simp [record, bound']
  apply (List.getElem?_inj _ consistent.once).mp (one.trans two.symm)
  simpa using bound

/-- Records are neither forgotten nor renumbered. -/
structure Extends (s t : SessionState) : Prop where
  length : s.records.length ≤ t.records.length
  num : ∀ r, r < s.records.length → (t.record r).num = (s.record r).num

theorem Extends.is (extends_ : s.Extends t) {r : Nat} {k : Int} (is : s.Is r k) : t.Is r k :=
  ⟨Nat.lt_of_lt_of_le is.1 extends_.length, (extends_.num r is.1).trans is.2⟩

theorem Extends.of_records (same : t.records = s.records) : s.Extends t := by
  constructor
  · rw [same]
  · intro r _
    simp only [record, same]

theorem extends_removeSession (p : Str) (reason : EndReason) (s : SessionState) :
    s.Extends (s.removeSession p reason).2 := by
  constructor
  · simp
  · intro r _
    rw [record_removeSession]

theorem extends_setWatchers (r : Nat) (watchers : Finset Str) (s : SessionState) :
    s.Extends (s.setWatchers r watchers) := by
  constructor
  · simp
  · intro r' _
    rw [record_setWatchers]
    split
    · next same => rw [same.1]
    · rfl

theorem extends_addWatcher (maxWatchers : Int) (w : Str) (n : Int) (s : SessionState) :
    s.Extends (s.addWatcher maxWatchers w n).2 := by
  unfold addWatcher
  split
  · exact .of_records rfl
  · next r _ =>
      split
      · exact .of_records rfl
      · have grown := extends_setWatchers r (insert w (s.record r).watchers)
          { s with watching := s.watching.set w n }
        exact ⟨grown.length, grown.num⟩

theorem extends_removeWatcher (w : Str) (s : SessionState) : s.Extends (s.removeWatcher w).2 := by
  unfold removeWatcher
  split
  · exact .of_records rfl
  · split
    · exact .of_records rfl
    · next r _ =>
        have shrunk := extends_setWatchers r ((s.record r).watchers.erase w)
          { s with watching := s.watching.erase w }
        exact ⟨shrunk.length, shrunk.num⟩

theorem extends_addSession (p name : Str) (s : SessionState) :
    s.Extends (s.addSession p name).2 := by
  constructor
  · simp [addSession, emit]
  · intro r bound
    rw [record_addSession, if_neg (Nat.ne_of_lt bound)]

end SessionState

section

variable {setup : Setup} {i : Item} {s : SessionState} {a : Point} {resume : Resume} {turn : Turn}

theorem Blocks.extends (blocks : Blocks setup i s a resume turn) : s.Extends turn.state := by
  cases blocks with
  | watches => exact SessionState.extends_addWatcher ..
  | unwatches => exact SessionState.extends_removeWatcher ..
  | adds => exact SessionState.extends_addSession ..
  | ends | forces | resets | vanishes => exact SessionState.extends_removeSession ..
  | _ => exact .of_records rfl

end

namespace ZorkBot

variable {setup : Setup} {b c : ZorkBot}

/-! ## What handlers hold -/

/-- The records that a handler holds are there, and a session that it has ended is the
one of its record. -/
def Filed (_ : Item) (point : Point) (s : SessionState) : Prop :=
  match point with
  | .playing r _ | .answering r _ _ _ => r < s.records.length
  | .ending rest | .confirming rest => ∀ r, rest.record = some r → s.Is r rest.session
  | _ => True

theorem Filed.extend {i : Item} {a : Point} {s t : SessionState} (filed : Filed i a s)
    (extends_ : s.Extends t) : Filed i a t := by
  cases a with
  | playing | answering => exact Nat.lt_of_lt_of_le filed extends_.length
  | ending | confirming => exact fun r held => extends_.is (filed r held)
  | _ => trivial

theorem filed_idle {i : Item} {a : Point} {s : SessionState} (idle : a.idle = true) :
    Filed i a s := by
  cases a <;> trivial

theorem Filed.own {i : Item} {s : SessionState} {a : Point} {resume : Resume} {turn : Turn}
    (consistent : s.Consistent setup.maxWatchers) (filed : Filed i a s)
    (blocks : Blocks setup i s a resume turn) : Filed i turn.point turn.state := by
  have extended := blocks.extends
  cases blocks with
  | quiet _ idle | watches _ _ idle | unwatches idle | adds _ idle | vanishes idle
  | records idle => exact filed_idle idle
  | ends _ plays record number =>
      intro r held
      rw [record, Option.some.injEq] at held
      subst held
      exact extended.is ⟨consistent.there plays, number.symm⟩
  | forces _ _ _ found record =>
      intro r held
      rw [record, Option.some.injEq] at held
      subst held
      obtain ⟨plays, num⟩ := consistent.byNum found
      exact extended.is ⟨consistent.there plays, num⟩
  | plays _ plays => exact consistent.there plays
  | answers | continues | closes => exact filed
  | _ => trivial

theorem filed_answered {i : Item} {a : Point} {s : SessionState} (filed : Filed i a s)
    {d : Delivery} {r : Nat} {command output : Str}
    (last : a.answered setup d = some (r, command, output)) : r < s.records.length := by
  unfold Point.answered at last
  split at last
  · split at last
    · cases last
      exact filed
    · cases last
  · cases last

theorem filed_rest {i : Item} {a : Point} {s : SessionState} (filed : Filed i a s) {r : Nat}
    (held : a.rest.bind Ending.record = some r) : r < s.records.length := by
  cases a with
  | ending rest | confirming rest => exact (filed r held).1
  | _ => cases held

theorem filed_step (sound : b.Sound setup) (filed : b.Holds Filed) {a : Act}
    (taken : b.step setup a = some c) : c.Holds Filed := by
  apply holds_step sound.gate filed _ _ _ _ taken
  · exact fun _ _ => trivial
  · rintro t i resume turn - there blocks
    exact (filed t i there).own sound.registry blocks
  · intro i a resume turn blocks j point _ filed
    exact filed.extend blocks.extends
  · intro i a s p filed
    exact filed.extend (SessionState.extends_removeSession ..)

theorem filed {guard : ZorkBot → Act → Prop} (reached : (zorkbot setup).Reachable guard b) :
    b.Holds Filed := by
  apply reached.invariant (motive := Holds Filed)
  · exact holds_init
  · intro b a c prior filed _ taken
    exact filed_step (sound prior) filed taken

/-! ## Reconciliation, one session after the other -/

/-- An active session is removed, and its notice is queued. -/
def dropOne (r : Nat) (b : ZorkBot) : ZorkBot :=
  { b with
    state := (b.state.removeSession (b.state.record r).playerId .serverSide).2
    fanout := b.fanout.fanout (b.state.record r).num (.notice r) }

theorem nodup_allSessions {s : SessionState} (consistent : s.Consistent setup.maxWatchers) :
    s.allSessions.Nodup := by
  rw [SessionState.allSessions, List.nodup_reverse]
  apply List.Nodup.map_on
  · rintro ⟨p, r⟩ listed ⟨q, r'⟩ listed' same
    change r = r' at same
    subst same
    have owner := consistent.owner (Table.mem_rows_iff.mp listed)
    rw [consistent.owner (Table.mem_rows_iff.mp listed')] at owner
    rw [owner]
  · exact (AList.nodupKeys s.sessions).nodup

section Rule

variable {motive : ZorkBot → Prop}
  (drop : ∀ b r, b.state.Consistent setup.maxWatchers → motive b →
    b.state.Plays (b.state.record r).playerId r → motive (b.dropOne r))

include drop in
theorem foldl_rule {players : List Str} (line : List Nat) (distinct : line.Nodup) (b : ZorkBot)
    (consistent : b.state.Consistent setup.maxWatchers) (holds : motive b)
    (active : ∀ r ∈ line, b.state.Plays (b.state.record r).playerId r) :
    motive (line.foldl (reconcileOne players) b) := by
  induction line generalizing b with
  | nil => exact holds
  | cons r rest ih =>
      obtain ⟨fresh, distinct⟩ := List.nodup_cons.mp distinct
      obtain ⟨first, others⟩ := List.forall_mem_cons.mp active
      rw [List.foldl_cons]
      by_cases listed : (b.state.record r).playerId ∈ players
      · have same : b.reconcileOne players r = b := if_pos listed
        rw [same]
        exact ih distinct b consistent holds others
      · have dropped : b.reconcileOne players r = b.dropOne r := if_neg listed
        rw [dropped]
        apply ih distinct (b.dropOne r) (consistent.removeSession _ _) (drop b r consistent holds first)
        intro r' among
        have plays := others r' among
        simp only [dropOne, SessionState.record_removeSession, SessionState.plays_removeSession]
        refine ⟨fun one => fresh ?_, plays⟩
        exact (one ▸ plays).unique first ▸ among

include drop in
/-- What every removal of an active session preserves, a reconciliation preserves. -/
theorem reconcile_rule {players : List Str} (consistent : b.state.Consistent setup.maxWatchers)
    (asleep : motive { b with poll := .sleeping }) : motive (b.reconcile players) := by
  apply foldl_rule drop _ (nodup_allSessions consistent) { b with poll := .sleeping } consistent
    asleep
  intro r listed
  obtain ⟨p, plays⟩ := SessionState.mem_allSessions.mp listed
  exact (consistent.owner plays).symm ▸ plays

end Rule

/-! ## The fan-out queues -/

/-- A step of the bot is a run of the fan-out. -/
theorem fan_path {a : Act} (taken : b.step setup a = some c) :
    (fanouts Fan).Path (fun _ _ => True) b.fanout c.fanout := by
  have goes : ∀ {f g : Fanout Fan} a, f.step a = some g →
      (fanouts Fan).Path (fun _ _ => True) f g :=
    fun a stepped => .tail (.refl _) (a := a) trivial stepped
  cases zorkbot_steps taken with
  | @runs t i resume turn =>
      change (fanouts Fan).Path _ b.fanout (turn.fanout.foldl _ b.fanout)
      generalize b.fanout = f
      generalize turn.fanout = calls
      induction calls generalizing f with
      | nil => exact .refl f
      | cons first rest ih => exact (goes (.fanout first.1 first.2) rfl).trans (ih _)
  | @reconciles players =>
      apply reconcile_induction
        (motive := fun d => (fanouts Fan).Path (fun _ _ => True) b.fanout d.fanout)
      · exact .refl _
      · intro d r path
        unfold reconcileOne
        split
        · exact path
        · exact path.trans (goes (.fanout _ _) rfl)
  | opens stepped onto | closes _ stepped onto =>
      obtain ⟨letters, rfl⟩ := fanTo_eq onto
      exact goes _ stepped
  | settles stepped => exact goes _ stepped
  | _ => exact .refl _

theorem fanReached {guard : ZorkBot → Act → Prop} (reached : (zorkbot setup).Reachable guard b) :
    (fanouts Fan).Reachable (fun _ _ => True) b.fanout := by
  apply reached.invariant (motive := fun b => (fanouts Fan).Reachable (fun _ _ => True) b.fanout)
  · exact System.reachable_init
  · intro b a c _ reached _ taken
    exact reached.trans (fan_path taken)

theorem begun_of_step (reached : (fanouts Fan).Reachable (fun _ _ => True) b.fanout) {a : Act}
    (taken : b.step setup a = some c) {j : Job Fan} (begun : b.fanout.Begun j) :
    c.fanout.Begun j := by
  have path := fan_path taken
  have both : c.fanout.Sound ∧ c.fanout.Begun j := by
    apply path.stable (motive := fun f => f.Sound ∧ f.Begun j)
    · rintro f a g ⟨sound, begun⟩ - stepped
      exact ⟨Fanout.sound_step sound stepped, Fanout.begun_step sound stepped begun⟩
    · exact ⟨Fanout.sound reached, begun⟩
  exact both.2

/-- A coroutine is put behind the others. -/
def queued (line : List (Job Fan)) (call : Int × Fan) : List (Job Fan) :=
  line ++ [⟨call.1, call.2, line.length⟩]

@[simp]
theorem accepted_leave (t : Nat) (p : Str) (turn : Turn) (b : ZorkBot) :
    (b.leave t p turn).fanout.accepted = turn.fanout.foldl queued b.fanout.accepted := by
  change (turn.fanout.foldl _ b.fanout).accepted = _
  generalize b.fanout = f
  generalize turn.fanout = calls
  induction calls generalizing f with
  | nil => rfl
  | cons call rest ih =>
      rw [List.foldl_cons, ih, Fanout.accepted_fanout]
      rfl

/-- Coroutines are queued in the blocks of handlers and in reconciliations only. -/
theorem queue_step {motive : SessionState → List (Job Fan) → Prop} (sound : b.Sound setup)
    (holds : motive b.state b.fanout.accepted) {a : Act}
    (own : ∀ t i resume turn, a = .run t resume → b.handling t = some i →
      Blocks setup i b.state (b.point t) resume turn →
        motive turn.state (turn.fanout.foldl queued b.fanout.accepted))
    (drop : ∀ s line r, s.Consistent setup.maxWatchers → motive s line →
      s.Plays (s.record r).playerId r →
        motive (s.removeSession (s.record r).playerId .serverSide).2
          (queued line ((s.record r).num, .notice r)))
    (taken : b.step setup a = some c) : motive c.state c.fanout.accepted := by
  cases zorkbot_steps taken with
  | runs there blocks =>
      rw [accepted_leave]
      exact own _ _ _ _ rfl there blocks
  | reconciles =>
      apply reconcile_rule (motive := fun b => motive b.state b.fanout.accepted) _ sound.registry holds
      intro b r consistent holds plays
      have one := drop _ _ r consistent holds plays
      simpa only [dropOne, Fanout.accepted_fanout, queued] using one
  | opens stepped onto | closes _ stepped onto =>
      obtain ⟨letters, rfl⟩ := fanTo_eq onto
      change motive b.state _
      rw [Fanout.accepted_of_step (by simp) stepped]
      exact holds
  | settles stepped =>
      change motive b.state _
      rw [Fanout.accepted_of_step (by simp) stepped]
      exact holds
  | _ => exact holds

/-- Every coroutine was queued for the session of the record that it holds. -/
theorem accepted_is {guard : ZorkBot → Act → Prop} (reached : (zorkbot setup).Reachable guard b) :
    ∀ j ∈ b.fanout.accepted, b.state.Is j.coro.record j.session := by
  apply reached.invariant (motive := fun b => ∀ j ∈ b.fanout.accepted,
    b.state.Is j.coro.record j.session)
  · intro j listed
    cases listed
  · intro b a c prior known _ taken
    have sound := sound prior
    apply queue_step (motive := fun s line => ∀ j ∈ line, s.Is j.coro.record j.session)
      sound known _ _ taken
    · rintro t i resume turn rfl there blocks j listed
      have extended := blocks.extends
      have filed := filed prior t i there
      generalize b.point t = a at blocks filed
      have old : j ∈ b.fanout.accepted → turn.state.Is j.coro.record j.session :=
        fun early => extended.is (known j early)
      cases blocks with
      | @handsOver _ r command output fan d last =>
          rcases List.mem_append.mp listed with early | new
          · exact old early
          · rw [List.mem_singleton.mp new]
            exact ⟨filed_answered filed last, rfl⟩
      | @notifies rest =>
          cases held : rest.record with
          | none =>
              rw [Ending.notices, held] at listed
              exact old listed
          | some r =>
              rw [Ending.notices, held] at listed
              rcases List.mem_append.mp listed with early | new
              · exact old early
              · rw [List.mem_singleton.mp new]
                exact filed r held
      | _ => exact old listed
    · intro s line r consistent known plays j listed
      have extended := SessionState.extends_removeSession (s.record r).playerId .serverSide s
      rcases List.mem_append.mp listed with early | new
      · exact extended.is (known j early)
      · rw [List.mem_singleton.mp new]
        exact extended.is ⟨consistent.there plays, rfl⟩

end ZorkBot

end Zorkbot.Bot
