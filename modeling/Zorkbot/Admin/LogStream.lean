/-
# What a log stream shows

Numbers are given under one lock and the calls that deliver go through one line, so what a
subscriber is offered is what was logged since it subscribed, in that order. It loses what
finds its queue full, and the next record that gets through says how many those were.
-/

import Zorkbot.Admin.LogBus

namespace Zorkbot.Admin

open Transition
open scoped List

/-- A record as it was numbered, and the gap that it reports. -/
def LogItem.told (item : LogItem) : LogItem × Nat :=
  ({ item with droppedBefore := none }, item.droppedBefore.getD 0)

namespace Subscriber

variable (item : LogItem) (sub : Subscriber)

@[simp] theorem offer_minLevel : (sub.offer item).minLevel = sub.minLevel := by
  unfold offer
  split
  · rfl
  · dsimp only
    split <;> rfl

@[simp] theorem offer_backlog : (sub.offer item).backlog = sub.backlog := by
  unfold offer
  split
  · rfl
  · dsimp only
    split <;> rfl

@[simp] theorem offer_since : (sub.offer item).since = sub.since := by
  unfold offer
  split
  · rfl
  · dsimp only
    split <;> rfl

variable {item sub}

/-- An offer is one line of the account, unless the level excludes the record. -/
theorem account_offer {offered : List LogItem} (plain : item.droppedBefore = none)
    (account : Lossy.Account offered (sub.received.map LogItem.told) sub.dropped) :
    Lossy.Account (offered ++ [item].filter fun item => sub.minLevel ≤ item.levelno)
      ((sub.offer item).received.map LogItem.told) (sub.offer item).dropped := by
  by_cases low : item.levelno < sub.minLevel
  · have excluded : [item].filter (fun item => sub.minLevel ≤ item.levelno) = [] := by
      simpa using low
    rwa [excluded, List.append_nil, offer, if_pos low]
  · have kept : [item].filter (fun item => sub.minLevel ≤ item.levelno) = [item] := by
      simpa using low
    rw [kept, offer, if_neg low]
    dsimp only
    split
    · have told : (if sub.dropped = 0 then item
          else { item with droppedBefore := some sub.dropped }).told = (item, sub.dropped) := by
        obtain ⟨seq, created, level, levelno, logger, message, droppedBefore⟩ := item
        subst plain
        split
        · next none => rw [none]; rfl
        · rfl
      rw [received, ← List.append_assoc, List.map_append, List.map_singleton, told]
      exact account.take item
    · exact account.lose item

end Subscriber

namespace LogBus

variable {setup : LogBusSetup} {s t : LogBus} {a : LogBusAct}

/-- The calls of `_deliver` still to be made. -/
def pending (s : LogBus) : List (List Nat × LogItem) :=
  s.ready ++ match s.emitting with
    | some (.handing subscribers item) => [(subscribers, item)]
    | _ => []

/-- What is still to be offered to a subscriber. -/
def outstanding (s : LogBus) (n : Nat) (minLevel : Int) : List LogItem :=
  ((s.pending.filter fun call => n ∈ call.1).map (·.2)).filter fun item => minLevel ≤ item.levelno

/-- What was numbered since a subscription, at its level or above. -/
def due (s : LogBus) (sub : Subscriber) : List LogItem :=
  (s.emitted.drop sub.since).filter fun item => sub.minLevel ≤ item.levelno

/-- A subscriber's backlog was there before, and of what has come since it was offered all
that is not outstanding. -/
structure Client (s : LogBus) (n : Nat) (sub : Subscriber) : Prop where
  since : sub.since ≤ s.emitted.length
  backlog : sub.backlog <+ s.emitted.take sub.since
  /-- What the ring has of earlier was replayed. -/
  replayed : ∀ item ∈ s.buffer, sub.minLevel ≤ item.levelno →
    item ∈ sub.backlog ∨ item ∈ s.emitted.drop sub.since
  account : ∃ offered rest, Lossy.Account offered (sub.received.map LogItem.told) sub.dropped ∧
    s.due sub = offered ++ s.outstanding n sub.minLevel ++ rest ∧ (n ∈ s.subscribers → rest = [])

structure Sound (s : LogBus) : Prop where
  ordered : s.emitted.Pairwise fun a b => a.seq < b.seq
  below : ∀ item ∈ s.emitted, 0 < item.seq ∧ item.seq < s.seq
  positive : 0 < s.seq
  plain : ∀ item ∈ s.emitted, item.droppedBefore = none
  buffered : s.buffer <:+ s.emitted
  looped : s.subscribers ≠ [] → s.loop = true
  distinct : s.subscribers.Nodup
  known : ∀ n ∈ s.subscribers, n < s.objects.length
  called : ∀ call ∈ s.pending, call.1.Nodup ∧ (∀ n ∈ call.1, n < s.objects.length) ∧
    call.2 ∈ s.emitted
  client : ∀ {n sub}, s.objects[n]? = some sub → s.Client n sub

/-! ## The operations -/

theorem objects_deliver {subscribers : List Nat} (distinct : subscribers.Nodup) (item : LogItem)
    (s : LogBus) (n : Nat) : (s.deliver subscribers item).objects[n]? =
      if n ∈ subscribers then (s.objects[n]?).map (·.offer item) else s.objects[n]? :=
  Objects.getElem?_updateEach distinct _ _ _

theorem length_deliver (subscribers : List Nat) (item : LogItem) (s : LogBus) :
    (s.deliver subscribers item).objects.length = s.objects.length :=
  Objects.length_updateEach ..

/-- What a subscriber has depends only on what was numbered and what is outstanding. -/
theorem Client.frame {n : Nat} {sub : Subscriber} (client : s.Client n sub)
    (emitted : t.emitted = s.emitted) (buffer : t.buffer = s.buffer)
    (pending : t.pending = s.pending) (fewer : n ∈ t.subscribers → n ∈ s.subscribers) :
    t.Client n sub := by
  obtain ⟨since, backlog, replayed, offered, rest, account, due, all⟩ := client
  refine ⟨emitted ▸ since, emitted ▸ backlog, emitted ▸ buffer ▸ replayed, offered, rest, account,
    ?_, fun there => all (fewer there)⟩
  rw [LogBus.due, emitted, outstanding, pending]
  exact due

theorem sound_init : (init : LogBus).Sound where
  ordered := List.Pairwise.nil
  below := nofun
  positive := Nat.one_pos
  plain := nofun
  buffered := List.suffix_rfl
  looped := fun filled => absurd rfl filled
  distinct := List.nodup_nil
  known := nofun
  called := nofun
  client := fun there => absurd (List.getElem?_nil.symm.trans there) nofun

theorem Sound.enter (sound : s.Sound) (idle : s.emitting = none) (record : LogRecord) :
    Sound { s with emitting := some (.rendering record) } := by
  have pending : LogBus.pending { s with emitting := some (.rendering record) } = s.pending := by
    simp [LogBus.pending, idle]
  exact { sound with
    called := by
      rw [pending]
      exact sound.called
    client := fun there => (sound.client there).frame rfl rfl pending id }

theorem Sound.handOff (sound : s.Sound) {subscribers : List Nat} {item : LogItem}
    (handing : s.emitting = some (.handing subscribers item)) :
    Sound { s with emitting := none, ready := s.ready ++ [(subscribers, item)] } := by
  have pending : LogBus.pending
      { s with emitting := none, ready := s.ready ++ [(subscribers, item)] } = s.pending := by
    simp [LogBus.pending, handing]
  exact { sound with
    called := by
      rw [pending]
      exact sound.called
    client := fun there => (sound.client there).frame rfl rfl pending id }

theorem Sound.leave (sound : s.Sound) (subscribers : List Nat) (loop : Bool)
    (fewer : subscribers <+ s.subscribers) (looped : subscribers ≠ [] → loop = true) :
    Sound { s with subscribers := subscribers, loop := loop } :=
  { sound with
    looped := looped
    distinct := sound.distinct.sublist fewer
    known := fun n there => sound.known n (fewer.subset there)
    client := fun there => (sound.client there).frame rfl rfl rfl fun there => fewer.subset there }

theorem Sound.number (sound : s.Sound) {record : LogRecord}
    (rendering : s.emitting = some (.rendering record)) : (s.number setup record).Sound := by
  have pending : (s.number setup record).pending = s.pending ++
      if s.subscribers = [] then [] else [(s.subscribers, { render record with seq := s.seq })] := by
    by_cases nobody : s.subscribers = []
    · simp [LogBus.pending, LogBus.number, rendering, nobody]
    · simp [LogBus.pending, LogBus.number, rendering, nobody, sound.looped nobody]
  have emitted : (s.number setup record).emitted =
    s.emitted ++ [{ render record with seq := s.seq }] := rfl
  have plain : ({ render record with seq := s.seq } : LogItem).droppedBefore = none := rfl
  have seq : ({ render record with seq := s.seq } : LogItem).seq = s.seq := rfl
  generalize new : ({ render record with seq := s.seq } : LogItem) = item at pending emitted plain seq
  constructor
  · rw [emitted, List.pairwise_append]
    refine ⟨sound.ordered, List.pairwise_singleton _ _, fun a there b last => ?_⟩
    rw [List.mem_singleton.mp last, seq]
    exact (sound.below a there).2
  · rw [emitted]
    intro a there
    rcases List.mem_append.mp there with there | last
    · exact ⟨(sound.below a there).1, Nat.lt_succ_of_lt (sound.below a there).2⟩
    · rw [List.mem_singleton.mp last, seq]
      exact ⟨sound.positive, Nat.lt_succ_self _⟩
  · exact Nat.succ_pos _
  · rw [emitted]
    intro a there
    rcases List.mem_append.mp there with there | last
    · exact sound.plain a there
    · rw [List.mem_singleton.mp last, plain]
  · obtain ⟨before, split⟩ := sound.buffered
    refine (Deque.append_suffix _ _ _).trans ⟨before, ?_⟩
    rw [← List.append_assoc, split]
    rfl
  · exact sound.looped
  · exact sound.distinct
  · exact sound.known
  · rw [pending, emitted]
    intro call there
    rcases List.mem_append.mp there with there | last
    · obtain ⟨distinct, known, listed⟩ := sound.called call there
      exact ⟨distinct, known, List.mem_append_left _ listed⟩
    · split at last
      · cases last
      · rw [List.mem_singleton.mp last]
        exact ⟨sound.distinct, sound.known, List.mem_append_right _ (List.mem_singleton_self _)⟩
  · intro n sub there
    obtain ⟨since, backlog, replayed, offered, rest, account, due, all⟩ := sound.client there
    have due' : (s.number setup record).due sub =
        s.due sub ++ [item].filter fun item => sub.minLevel ≤ item.levelno := by
      rw [LogBus.due, emitted, List.drop_append_of_le_length since, List.filter_append]
      rfl
    refine ⟨?_, ?_, ?_, ?_⟩
    · rw [emitted, List.length_append]
      exact Nat.le_add_right_of_le since
    · rw [emitted, List.take_append_of_le_length since]
      exact backlog
    · intro r there high
      rw [emitted, List.drop_append_of_le_length since, List.mem_append]
      rcases List.mem_append.mp ((Deque.append_suffix _ _ _).subset there) with there | last
      · exact (replayed r there high).imp_right .inl
      · exact .inr (.inr (new ▸ last))
    · by_cases subscribed : n ∈ s.subscribers
      · have nonempty := List.ne_nil_of_mem subscribed
        refine ⟨offered, [], account, ?_, fun _ => rfl⟩
        rw [due', due, all subscribed, outstanding, outstanding, pending, if_neg nonempty]
        simp [subscribed]
      · have skipped : (s.number setup record).outstanding n sub.minLevel =
            s.outstanding n sub.minLevel := by
          rw [outstanding, pending]
          split
          · rw [List.append_nil]
            rfl
          · simp [outstanding, subscribed]
        refine ⟨offered, rest ++ [item].filter fun item => sub.minLevel ≤ item.levelno, account,
          ?_, fun there => absurd there subscribed⟩
        rw [due', due, skipped]
        exact List.append_assoc ..

theorem Sound.deliver (sound : s.Sound) {subscribers : List Nat} {item : LogItem}
    {rest : List (List Nat × LogItem)} (first : s.ready = (subscribers, item) :: rest) :
    (LogBus.deliver subscribers item { s with ready := rest }).Sound := by
  have pending : s.pending = (subscribers, item) ::
      (LogBus.deliver subscribers item { s with ready := rest }).pending := by
    rw [LogBus.pending, first]
    rfl
  obtain ⟨distinct, known, listed⟩ := sound.called _ (pending ▸ List.mem_cons_self)
  exact { sound with
    known := fun n there => (sound.known n there).trans_eq (length_deliver ..).symm
    called := fun call there => by
      obtain ⟨distinct, known, listed⟩ := sound.called call (pending ▸ List.mem_cons_of_mem _ there)
      exact ⟨distinct, fun n there => (known n there).trans_eq (length_deliver ..).symm, listed⟩
    client := fun {n after} there => by
      rw [objects_deliver distinct] at there
      split at there
      · next called =>
          obtain ⟨sub, object, rfl⟩ := Option.map_eq_some_iff.mp there
          obtain ⟨since, backlog, replayed, offered, later, account, due, all⟩ := sound.client object
          refine ⟨(Subscriber.offer_since item sub).symm ▸ since, ?_, ?_, _, later,
            Subscriber.account_offer (sound.plain item listed) account, ?_, all⟩
          · rw [Subscriber.offer_since, Subscriber.offer_backlog]
            exact backlog
          · rw [Subscriber.offer_since, Subscriber.offer_backlog, Subscriber.offer_minLevel]
            exact replayed
          have head : s.outstanding n sub.minLevel =
              ([item].filter fun item => sub.minLevel ≤ item.levelno) ++
                (LogBus.deliver subscribers item { s with ready := rest }).outstanding n
                  sub.minLevel := by
            rw [outstanding, pending, List.filter_cons_of_pos (by simpa using called),
              List.map_cons, ← List.singleton_append, List.filter_append]
            rfl
          rw [Subscriber.offer_minLevel, List.append_assoc offered, ← head, ← due, LogBus.due,
            LogBus.due, Subscriber.offer_since, Subscriber.offer_minLevel]
          rfl
      · next uncalled =>
          obtain ⟨since, backlog, replayed, offered, later, account, due, all⟩ := sound.client there
          refine ⟨since, backlog, replayed, offered, later, account, ?_, all⟩
          have skipped : s.outstanding n after.minLevel =
              (LogBus.deliver subscribers item { s with ready := rest }).outstanding n
                after.minLevel := by
            rw [outstanding, pending, List.filter_cons_of_neg (by simpa using uncalled)]
            rfl
          rw [← skipped]
          exact due }

theorem Sound.subscribe (sound : s.Sound) (minLevel : Int) : (s.subscribe minLevel).Sound := by
  have longer : ∀ n, n < s.objects.length → n < (s.subscribe minLevel).objects.length := by
    intro n known
    rw [LogBus.subscribe, List.length_append]
    exact Nat.lt_add_right _ known
  exact { sound with
    looped := fun _ => rfl
    distinct := by
      refine List.nodup_append.mpr ⟨sound.distinct, by simp, fun n there m last => ?_⟩
      rw [List.mem_singleton.mp last]
      exact (sound.known n there).ne
    known := fun n there => by
      rcases List.mem_append.mp there with there | last
      · exact longer n (sound.known n there)
      · rw [List.mem_singleton.mp last, LogBus.subscribe, List.length_append]
        exact Nat.lt_succ_self _
    called := fun call there => by
      obtain ⟨distinct, known, listed⟩ := sound.called call there
      exact ⟨distinct, fun n there => longer n (known n there), listed⟩
    client := fun {n sub} there => by
      rcases Objects.getElem?_append_singleton there with there | ⟨rfl, rfl⟩
      · have known := (Objects.lt_length there)
        refine (sound.client there).frame rfl rfl rfl fun listed => ?_
        rcases List.mem_append.mp listed with listed | last
        · exact listed
        · exact absurd (List.mem_singleton.mp last) known.ne
      · refine ⟨le_rfl, ?_, ?_, [], [], Lossy.Account.nil, ?_, fun _ => rfl⟩
        · show s.buffer.filter _ <+ s.emitted.take s.emitted.length
          rw [List.take_length]
          exact List.filter_sublist.trans sound.buffered.sublist
        · exact fun item there high => .inl (List.mem_filter.mpr ⟨there, decide_eq_true high⟩)
        · have nothing : (s.subscribe minLevel).outstanding s.objects.length minLevel = [] := by
            have uncalled : (s.subscribe minLevel).pending.filter
                (fun call => s.objects.length ∈ call.1) = [] := by
              rw [List.filter_eq_nil_iff]
              intro call there
              rw [decide_eq_true_eq]
              exact fun listed => Nat.lt_irrefl _ ((sound.called call there).2.1 _ listed)
            rw [outstanding, uncalled]
            rfl
          rw [LogBus.due, subscriber, nothing]
          simp [LogBus.subscribe] }

theorem Sound.get (sound : s.Sound) {n : Nat} (taken : s.get n = some t) : t.Sound := by
  simp only [LogBus.get] at taken
  split at taken
  · next sub there =>
      split at taken <;> cases taken
      next item rest queue =>
      have length : ∀ after, (s.objects.set n after).length = s.objects.length :=
        fun after => List.length_set
      exact { sound with
        known := fun m listed => (sound.known m listed).trans_eq (length _).symm
        called := fun call listed => by
          obtain ⟨distinct, known, listed⟩ := sound.called call listed
          exact ⟨distinct, fun m listed => (known m listed).trans_eq (length _).symm, listed⟩
        client := fun {m after} there' => by
          rw [List.getElem?_set] at there'
          split at there'
          · next same =>
              subst same
              rw [if_pos (Objects.lt_length there)] at there'
              cases there'
              obtain ⟨since, backlog, replayed, offered, later, account, due, all⟩ := sound.client there
              refine ⟨since, backlog, replayed, offered, later, ?_, due, all⟩
              rw [Subscriber.received, queue] at account
              simpa [Subscriber.received] using account
          · exact (sound.client there').frame rfl rfl rfl id }
  · cases taken

theorem sound_step (sound : s.Sound) (taken : s.step setup a = some t) : t.Sound := by
  cases a with
  | enter record =>
      simp only [step] at taken
      split at taken <;> cases taken
      exact sound.enter ‹_› record
  | number =>
      simp only [step] at taken
      split at taken <;> cases taken
      exact sound.number ‹_›
  | handOff =>
      simp only [step] at taken
      split at taken <;> cases taken
      exact sound.handOff ‹_›
  | deliver =>
      simp only [step] at taken
      split at taken <;> cases taken
      exact sound.deliver ‹_›
  | subscribe minLevel =>
      cases taken
      exact sound.subscribe minLevel
  | unsubscribe n =>
      cases taken
      exact sound.leave _ s.loop List.filter_sublist fun filled =>
        sound.looped fun empty => filled (by simp [empty])
  | get n => exact sound.get taken
  | detach =>
      cases taken
      exact sound.leave [] false (List.nil_sublist _) fun filled => absurd rfl filled

theorem sound (reached : (logBus setup).Reachable (fun _ _ => True) s) : s.Sound := by
  apply reached.invariant (motive := Sound)
  · exact sound_init
  · intro s a t _ sound _ taken
    exact sound_step sound taken

/-! ## The stream -/

theorem filter_due (sub : Subscriber) (p : LogItem → Prop) [DecidablePred p] :
    (s.due sub).filter (fun item => decide (p item)) =
      (s.emitted.drop sub.since).filter fun item => decide (sub.minLevel ≤ item.levelno ∧ p item) := by
  rw [due, List.filter_filter]
  congr 1
  funext item
  rw [Bool.decide_and, Bool.and_comm]

/-- What came to a queue was numbered since the subscription, in this order. -/
theorem received_sublist (sound : s.Sound) {n : Nat} {sub : Subscriber}
    (there : s.objects[n]? = some sub) :
    sub.received.map (fun item => item.told.1) <+ s.emitted.drop sub.since := by
  obtain ⟨-, -, -, offered, rest, account, due, -⟩ := sound.client there
  have received := account.sublist
  rw [List.map_map] at received
  have offered : offered <+ s.due sub := by
    rw [due, List.append_assoc]
    exact List.sublist_append_left _ _
  exact received.trans (offered.trans List.filter_sublist)

/-- The numbers of what a subscriber is shown increase. -/
theorem stream_ordered (sound : s.Sound) {n : Nat} {sub : Subscriber}
    (there : s.objects[n]? = some sub) :
    (sub.backlog ++ sub.received).Pairwise fun a b => a.seq < b.seq := by
  have shown : (sub.backlog ++ sub.received.map fun item => item.told.1) <+ s.emitted := by
    rw [← List.take_append_drop sub.since s.emitted]
    exact (sound.client there).backlog.append (received_sublist sound there)
  have ordered := (List.pairwise_map.mpr sound.ordered).sublist (shown.map (·.seq))
  rw [List.map_append, List.map_map] at ordered
  refine (List.pairwise_map (f := fun item : LogItem => item.seq)).mp ?_
  rw [List.map_append]
  exact ordered

/-- For any interleaving of logging threads, subscriptions, deliveries and reads, what a
subscriber is shown has increasing numbers, and every record that came to its queue says how
many at its level it was not shown since the one before. -/
theorem stream_intact (reached : (logBus setup).Reachable (fun _ _ => True) s) {n : Nat}
    {sub : Subscriber} (there : s.objects[n]? = some sub) :
    ((sub.backlog ++ sub.received).map (·.seq)).Pairwise (· < ·) ∧
      ∀ pre item post, sub.received = pre ++ item :: post →
        ((s.emitted.drop sub.since).filter fun r => sub.minLevel ≤ r.levelno ∧
          (∀ p ∈ pre.getLast?, p.seq < r.seq) ∧ r.seq < item.seq ∧
            r.seq ∉ sub.received.map (·.seq)).length = item.droppedBefore.getD 0 := by
  have sound := sound reached
  constructor
  · exact List.pairwise_map.mpr (stream_ordered sound there)
  · intro pre item post split
    obtain ⟨-, -, -, offered, rest, account, due, -⟩ := sound.client there
    have ordered : (s.due sub).Pairwise fun a b => a.seq < b.seq :=
      sound.ordered.sublist (List.filter_sublist.trans (List.drop_sublist _ _))
    have told : sub.received.map LogItem.told =
        pre.map LogItem.told ++ item.told :: post.map LogItem.told := by
      rw [split, List.map_append, List.map_cons]
    have missing := Lossy.Account.missing account (·.seq)
      ((List.pairwise_append.mp (List.append_assoc .. ▸ due ▸ ordered)).1) told
    have late : (s.outstanding n sub.minLevel ++ rest).filter (fun r =>
        decide (Lossy.Missing (·.seq) (sub.received.map LogItem.told) (pre.map LogItem.told)
          item.told.1 r)) = [] := by
      rw [List.filter_eq_nil_iff]
      intro r later
      rw [decide_eq_true_eq]
      rintro ⟨-, below, -⟩
      have listed : item.told.1 ∈ offered := by
        apply account.sublist.subset
        rw [told, List.map_append, List.map_cons]
        exact List.mem_append_right _ List.mem_cons_self
      rw [due, List.append_assoc] at ordered
      exact Nat.lt_asymm below ((List.pairwise_append.mp ordered).2.2 _ listed r later)
    have same : ∀ r : LogItem, Lossy.Missing (·.seq) (sub.received.map LogItem.told)
        (pre.map LogItem.told) item.told.1 r ↔ (∀ p ∈ pre.getLast?, p.seq < r.seq) ∧
          r.seq < item.seq ∧ r.seq ∉ sub.received.map (·.seq) := by
      intro r
      simp [Lossy.Missing, List.getLast?_map, LogItem.told]
    simp only [← same]
    rw [← filter_due, due, List.append_assoc, List.filter_append, late, List.append_nil]
    exact missing

def plainLog : LogBusSetup := ⟨500, 2⟩

/-- A warning of a thread. -/
def warning : LogRecord := ⟨0, "WARNING".toList, 30, "zorkbot.bot".toList, some "busy".toList⟩

/-- The way of a record from its thread to the queues. -/
def logged : List LogBusAct := [.enter warning, .number, .handOff, .deliver]

/-- One record more than a queue holds, then a read, and one more. -/
def flood : List LogBusAct :=
  LogBusAct.enter warning :: .number :: .subscribe 20 :: (List.replicate 257 logged).flatten ++
    .get 0 :: logged

/-- The record after the one that was lost says so. -/
theorem stream_intact_flood : ∃ (s : LogBus) (sub : Subscriber) (pre post : List LogItem)
    (item : LogItem), s.objects[0]? = some sub ∧ sub.received = pre ++ item :: post ∧
      item.droppedBefore = some 1 ∧ ((s.emitted.drop sub.since).filter fun r =>
        sub.minLevel ≤ r.levelno ∧ (∀ p ∈ pre.getLast?, p.seq < r.seq) ∧ r.seq < item.seq ∧
          r.seq ∉ sub.received.map (·.seq)).length = 1 := by
  obtain ⟨s, path, last⟩ := System.reaches (logBus plainLog) (fun _ _ => True)
    (fun s => (s.objects[0]?.bind fun sub => sub.received[256]?).map (·.droppedBefore) =
      some (some 1))
    flood (fun _ _ _ => trivial) (by decide +kernel)
  obtain ⟨item, found, one⟩ := Option.map_eq_some_iff.mp last
  obtain ⟨sub, there, at_⟩ := Option.bind_eq_some_iff.mp found
  obtain ⟨long, rfl⟩ := List.getElem?_eq_some_iff.mp at_
  have split : sub.received = sub.received.take 256 ++ sub.received[256] :: sub.received.drop 257 := by
    rw [← List.drop_eq_getElem_cons long, List.take_append_drop]
  have counted := (stream_intact (path.mono fun _ _ _ => trivial) there).2 _ _ _ split
  rw [one] at counted
  exact ⟨s, sub, _, _, _, there, split, one, counted⟩

/-! ## What a step leaves -/

/-- A subscriber as it was, or with more in its queue or read. -/
structure Continues (sub after : Subscriber) : Prop where
  backlog : after.backlog = sub.backlog
  since : after.since = sub.since
  minLevel : after.minLevel = sub.minLevel
  read : sub.read <+: after.read
  received : sub.received <+: after.received

theorem Continues.refl (sub : Subscriber) : Continues sub sub :=
  ⟨rfl, rfl, rfl, List.prefix_rfl, List.prefix_rfl⟩

theorem continues_offer (item : LogItem) (sub : Subscriber) :
    Continues sub (sub.offer item) ∧ (sub.offer item).read = sub.read := by
  unfold Subscriber.offer
  split
  · exact ⟨.refl sub, rfl⟩
  · dsimp only
    split
    · refine ⟨⟨rfl, rfl, rfl, List.prefix_rfl, ?_⟩, rfl⟩
      rw [Subscriber.received, Subscriber.received, ← List.append_assoc]
      exact List.prefix_append _ _
    · exact ⟨⟨rfl, rfl, rfl, List.prefix_rfl, List.prefix_rfl⟩, rfl⟩

/-- A later state of the bus. -/
structure Later (s t : LogBus) : Prop where
  emitted : s.emitted <+: t.emitted
  object : ∀ {n : Nat} {sub : Subscriber}, s.objects[n]? = some sub →
    ∃ after, t.objects[n]? = some after ∧ Continues sub after

theorem Later.refl (s : LogBus) : Later s s :=
  ⟨List.prefix_rfl, fun there => ⟨_, there, .refl _⟩⟩

theorem object_get {n : Nat} (taken : s.get n = some t) :
    ∃ sub item rest, s.objects[n]? = some sub ∧ sub.queue = item :: rest ∧
      t = { s with
        objects := s.objects.set n { sub with queue := rest, read := sub.read ++ [item] } } := by
  simp only [LogBus.get] at taken
  split at taken
  · next sub there =>
      split at taken <;> cases taken
      exact ⟨_, _, _, there, ‹_›, rfl⟩
  · cases taken

theorem later_get {n : Nat} (taken : s.get n = some t) : Later s t := by
  obtain ⟨sub, item, rest, there, queue, rfl⟩ := object_get taken
  refine ⟨List.prefix_rfl, fun {m before} there' => ?_⟩
  by_cases same : n = m
  · subst same
    obtain rfl := Option.some.inj (there.symm.trans there')
    refine ⟨_, List.getElem?_set_self (Objects.lt_length there), rfl, rfl, rfl,
      List.prefix_append _ _, ?_⟩
    rw [Subscriber.received, queue]
    exact (List.append_cons ..).symm ▸ List.prefix_rfl
  · exact ⟨before, (List.getElem?_set_ne same).trans there', .refl before⟩

/-- A step leaves what was numbered and what a queue got, and only a read takes from one. -/
theorem later_step (sound : s.Sound) (taken : s.step setup a = some t) :
    Later s t ∧ ∀ {n : Nat} {sub after : Subscriber}, a ≠ .get n → s.objects[n]? = some sub →
      t.objects[n]? = some after → after.read = sub.read := by
  have same : t.emitted = s.emitted → t.objects = s.objects →
      Later s t ∧ ∀ {n : Nat} {sub after : Subscriber}, a ≠ .get n → s.objects[n]? = some sub →
        t.objects[n]? = some after → after.read = sub.read := by
    intro emitted objects
    rw [objects]
    refine ⟨⟨emitted ▸ List.prefix_rfl, fun there => ⟨_, objects ▸ there, .refl _⟩⟩, ?_⟩
    intro n sub after _ there there'
    rw [Option.some.inj (there'.symm.trans there)]
  cases a with
  | enter record =>
      simp only [step] at taken
      split at taken <;> cases taken
      exact same rfl rfl
  | number =>
      simp only [step] at taken
      split at taken <;> cases taken
      refine ⟨⟨List.prefix_append _ _, fun there => ⟨_, there, .refl _⟩⟩, ?_⟩
      intro n sub after _ there there'
      rw [Option.some.inj (there'.symm.trans there)]
  | handOff =>
      simp only [step] at taken
      split at taken <;> cases taken
      exact same rfl rfl
  | deliver =>
      simp only [step] at taken
      split at taken <;> cases taken
      next subscribers item rest ready =>
      have distinct : subscribers.Nodup := by
        refine (sound.called (subscribers, item) ?_).1
        rw [pending, ready]
        exact List.mem_cons_self
      refine ⟨⟨List.prefix_rfl, fun {n sub} there => ?_⟩, ?_⟩
      · rw [objects_deliver distinct, there]
        split
        · exact ⟨_, rfl, (continues_offer item sub).1⟩
        · exact ⟨sub, rfl, .refl sub⟩
      · intro n sub after _ there there'
        rw [objects_deliver distinct, there] at there'
        split at there' <;> cases there'
        · exact (continues_offer item sub).2
        · rfl
  | subscribe minLevel =>
      cases taken
      have kept : ∀ {n sub}, s.objects[n]? = some sub →
          (s.subscribe minLevel).objects[n]? = some sub := Objects.getElem?_append_of_some
      refine ⟨⟨List.prefix_rfl, fun there => ⟨_, kept there, .refl _⟩⟩, ?_⟩
      intro n sub after _ there there'
      rw [Option.some.inj (there'.symm.trans (kept there))]
  | unsubscribe n | detach =>
      cases taken
      exact same rfl rfl
  | get n =>
      refine ⟨later_get taken, fun {m sub after} other there there' => ?_⟩
      obtain ⟨_, _, _, _, _, rfl⟩ := object_get taken
      have apart : n ≠ m := fun same => other (same ▸ rfl)
      rw [List.getElem?_set_ne apart, there] at there'
      rw [← Option.some.inj there']

end LogBus

end Zorkbot.Admin
