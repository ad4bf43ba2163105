/-
# What the log tab shows once

The watermark of the page is a number of one process, and the page compares it with the
numbers of any. As long as no record of another process comes with a number that the
watermark has passed, and none that an earlier stream of the page had no room for, every
record that the page reads is accepted, the first time and only then.
-/

import Zorkbot.Admin.LogStream
import Zorkbot.Admin.LogView

namespace Zorkbot.Admin

open Transition
open scoped List

namespace LogBus

variable {setup : LogBusSetup} {s t : LogBus} {n : Nat} {sub after : Subscriber}

/-- A backlog is older than what was numbered since. -/
theorem backlog_below (sound : s.Sound) (there : s.objects[n]? = some sub) {item x : LogItem}
    (old : item ∈ sub.backlog) (new : x ∈ s.emitted.drop sub.since) : item.seq < x.seq := by
  have ordered := sound.ordered
  rw [← List.take_append_drop sub.since s.emitted, List.pairwise_append] at ordered
  exact ordered.2.2 item ((sound.client there).backlog.subset old) x new

theorem seq_mem_drop (sound : s.Sound) (there : s.objects[n]? = some sub) {item : LogItem}
    (received : item ∈ sub.received) :
    ∃ x ∈ s.emitted.drop sub.since, x.seq = item.seq :=
  ⟨item.told.1, (received_sublist sound there).subset (List.mem_map_of_mem received), rfl⟩

/-- What was passed over does not come later. -/
theorem misses_later (sound : t.Sound) (later : Later s t) (there : t.objects[n]? = some after)
    (goesOn : Continues sub after) {seq : Nat} (misses : s.Misses sub seq) {item : LogItem}
    (shown : item ∈ sub.backlog ++ sub.read) (above : seq < item.seq) : t.Misses after seq := by
  obtain ⟨listed, absent⟩ := misses
  obtain ⟨x, numbered, rfl⟩ := List.mem_map.mp listed
  have numbered : x ∈ t.emitted.drop after.since := by
    obtain ⟨more, split⟩ := later.emitted
    rw [goesOn.since, ← split, List.drop_append]
    exact List.mem_append_left _ numbered
  refine ⟨List.mem_map_of_mem numbered, fun came => ?_⟩
  obtain ⟨y, came, same⟩ := List.mem_map.mp came
  rcases List.mem_append.mp shown with old | read
  · have below := backlog_below sound there (goesOn.backlog ▸ old) numbered
    omega
  · obtain ⟨new, split⟩ := goesOn.received
    rw [← split] at came
    rcases List.mem_append.mp came with came | came
    · exact absent (same ▸ List.mem_map_of_mem came)
    · have ordered := (List.pairwise_append.mp (stream_ordered sound there)).2.1
      rw [← split] at ordered
      have below := (List.pairwise_append.mp ordered).2.2 item (List.mem_append_left _ read) y came
      omega

/-- What one step of the bus adds to what was numbered, and to the ring. -/
structure Onward (s t : LogBus) : Prop where
  later : Later s t
  seq : s.seq ≤ t.seq
  numbered : ∃ new, t.emitted = s.emitted ++ new ∧ (∀ item ∈ new, s.seq ≤ item.seq) ∧
    ∀ item ∈ t.buffer, item ∈ s.buffer ∨ item ∈ new

theorem Onward.refl (s : LogBus) : Onward s s :=
  ⟨.refl s, le_rfl, [], (List.append_nil _).symm, nofun, fun _ there => .inl there⟩

theorem onward_step {a : LogBusAct} (sound : s.Sound) (taken : s.step setup a = some t) :
    Onward s t := by
  have later := (later_step sound taken).1
  have same : t.seq = s.seq → t.emitted = s.emitted → t.buffer = s.buffer → Onward s t :=
    fun seq emitted buffer => ⟨later, seq.ge, [], by rw [emitted, List.append_nil], nofun,
      fun item there => .inl (buffer ▸ there)⟩
  cases a with
  | enter | handOff | deliver =>
      simp only [step] at taken
      split at taken <;> cases taken
      exact same rfl rfl rfl
  | subscribe | unsubscribe | detach =>
      cases taken
      exact same rfl rfl rfl
  | get n =>
      obtain ⟨_, _, _, _, _, rfl⟩ := object_get taken
      exact same rfl rfl rfl
  | number =>
      simp only [step] at taken
      split at taken <;> cases taken
      refine ⟨later, Nat.le_succ _, _, rfl, fun item new => ?_, fun item there => ?_⟩
      · rw [List.mem_singleton.mp new]
      · exact List.mem_append.mp ((Deque.append_suffix _ _ _).subset there)

end LogBus

namespace LogTab

variable {setup : LogBusSetup} {s t : LogTab}

theorem busOf_process (s : LogTab) : s.busOf s.process = some s.bus := by
  simp [busOf, process]

/-! ## What the page knows -/

/-- The record has been read, or a stream skipped it. -/
def Known (s : LogTab) (p seq : Nat) : Prop :=
  (∃ a ∈ s.view.streamed, a.process = p ∧ a.item.seq = seq) ∨ s.Skipped p seq

/-- A stream as the server and the page have it, with what the page has read of it. -/
structure Connected (s : LogTab) (c : LogConnection) (bus : LogBus) (sub : Subscriber)
    (handled : List LogItem) : Prop where
  known : s.busOf c.process = some bus
  object : bus.objects[c.queue]? = some sub
  level : sub.minLevel = s.view.level.levelno
  order : s.view.source ≤ c.process
  shown : sub.backlog ++ sub.read = handled ++ c.wire ++ c.replay
  came : ∀ item ∈ handled, ⟨c.process, c.queue, item⟩ ∈ s.view.streamed
  /-- What it replays below the watermark the page knows. -/
  replayed : c.process = s.view.source → ∀ item ∈ sub.backlog,
    item.seq ≤ s.view.logLastSeq → s.Known c.process item.seq
  /-- What is new below the watermark, this stream has raised the watermark past. -/
  raised : c.process = s.view.source → ∀ item ∈ bus.emitted.drop sub.since,
    item.seq ≤ s.view.logLastSeq → ∃ h ∈ handled, item.seq ≤ h.seq

/-- What holds of the tab whichever stream it reads. -/
structure Settled (setup : LogBusSetup) (s : LogTab) : Prop where
  runs : ∀ {p bus}, s.busOf p = some bus → (logBus setup).Reachable (fun _ _ => True) bus
  order : s.view.source ≤ s.process
  mark : s.view.source = s.process → s.view.logLastSeq < s.bus.seq
  once : ∀ a ∈ s.view.streamed, s.acceptances a = 1
  low : ∀ a ∈ s.view.accepted, a.process < s.view.source ∨
    a.process = s.view.source ∧ a.item.seq ≤ s.view.logLastSeq
  origin : ∀ a ∈ s.view.streamed, ∃ bus sub, s.busOf a.process = some bus ∧
    bus.objects[a.queue]? = some sub ∧ a.item ∈ sub.backlog ++ sub.read
  ring : s.view.source = s.process → ∀ item ∈ s.bus.buffer,
    s.view.level.levelno ≤ item.levelno → item.seq ≤ s.view.logLastSeq →
      s.Known s.process item.seq

structure Kept (setup : LogBusSetup) (s : LogTab) : Prop where
  settled : s.Settled setup
  stream : ∀ {c}, s.view.stream = some c → ∃ bus sub handled, s.Connected c bus sub handled

theorem Settled.sound (settled : s.Settled setup) {p : Nat} {bus : LogBus}
    (there : s.busOf p = some bus) : bus.Sound :=
  LogBus.sound (settled.runs there)

/-- The processes are later ones, and the page has read no less. -/
structure Grows (s t : LogTab) : Prop where
  bus : ∀ {p bus}, s.busOf p = some bus →
    ∃ after, t.busOf p = some after ∧ LogBus.Later bus after
  streamed : ∀ a ∈ s.view.streamed, a ∈ t.view.streamed

theorem Settled.origin_grow (settled : s.Settled setup) (grows : Grows s t) {a : Arrival}
    (there : a ∈ s.view.streamed) : ∃ bus sub, t.busOf a.process = some bus ∧
      bus.objects[a.queue]? = some sub ∧ a.item ∈ sub.backlog ++ sub.read := by
  obtain ⟨bus, sub, known, object, shown⟩ := settled.origin a there
  obtain ⟨bus', known', later⟩ := grows.bus known
  obtain ⟨sub', object', goesOn⟩ := later.object object
  refine ⟨bus', sub', known', object', ?_⟩
  rw [goesOn.backlog]
  exact List.mem_append.mpr ((List.mem_append.mp shown).imp_right fun read => goesOn.read.subset read)

theorem Known.grow {p seq : Nat} (known : s.Known p seq) (settled : s.Settled setup)
    (runs : ∀ {p bus}, t.busOf p = some bus → bus.Sound) (grows : Grows s t) : t.Known p seq := by
  rcases known with ⟨a, there, same⟩ | ⟨a, there, rfl, above, bus, known, sub, object, misses⟩
  · exact .inl ⟨a, grows.streamed a there, same⟩
  · obtain ⟨bus', sub', known', object', shown⟩ := settled.origin a there
    obtain rfl := Option.some.inj (known.symm.trans known')
    obtain rfl := Option.some.inj (object.symm.trans object')
    obtain ⟨after, known', later⟩ := grows.bus known
    obtain ⟨sub', object', goesOn⟩ := later.object object
    exact .inr ⟨a, grows.streamed a there, rfl, above, after, known', sub', object',
      LogBus.misses_later (runs known') later object' goesOn misses shown above⟩

/-! ## Steps that leave what the page knows -/

theorem busOf_eq_some {p : Nat} {bus : LogBus} :
    s.busOf p = some bus ↔ s.past[p]? = some bus ∨ p = s.process ∧ bus = s.bus := by
  constructor
  · exact Objects.getElem?_append_singleton
  · rintro (gone | ⟨rfl, rfl⟩)
    · exact Objects.getElem?_append_of_some gone
    · exact busOf_process s

/-- The page has the same marks and has read the same. -/
structure SameMarks (v w : LogView) : Prop where
  level : w.level = v.level
  logLastSeq : w.logLastSeq = v.logLastSeq
  source : w.source = v.source
  streamed : w.streamed = v.streamed
  accepted : w.accepted = v.accepted

/-- The process that runs goes on, and the page knows what it knew. -/
structure Advances (setup : LogBusSetup) (s t : LogTab) : Prop where
  past : t.past = s.past
  onward : LogBus.Onward s.bus t.bus
  runs : (logBus setup).Reachable (fun _ _ => True) t.bus
  marks : SameMarks s.view t.view

theorem Advances.process (advances : Advances setup s t) : t.process = s.process :=
  congrArg List.length advances.past

theorem Advances.grows (advances : Advances setup s t) : Grows s t := by
  refine ⟨fun {p bus} known => ?_, fun a there => advances.marks.streamed ▸ there⟩
  rcases busOf_eq_some.mp known with gone | ⟨rfl, rfl⟩
  · exact ⟨bus, busOf_eq_some.mpr (.inl (advances.past ▸ gone)), .refl bus⟩
  · exact ⟨t.bus, busOf_eq_some.mpr (.inr ⟨advances.process.symm, rfl⟩), advances.onward.later⟩

theorem Advances.reachable (advances : Advances setup s t) (settled : s.Settled setup) {p : Nat}
    {bus : LogBus} (known : t.busOf p = some bus) :
    (logBus setup).Reachable (fun _ _ => True) bus := by
  rcases busOf_eq_some.mp known with gone | ⟨rfl, rfl⟩
  · exact settled.runs (busOf_eq_some.mpr (.inl (advances.past ▸ gone)))
  · exact advances.runs

theorem Advances.known (advances : Advances setup s t) (settled : s.Settled setup) {p seq : Nat}
    (known : s.Known p seq) : t.Known p seq :=
  known.grow settled (fun known => LogBus.sound (advances.reachable settled known)) advances.grows

theorem Settled.advance (settled : s.Settled setup) (advances : Advances setup s t) :
    t.Settled setup := by
  have marks := advances.marks
  have mark : s.view.source = s.process → s.view.logLastSeq < t.bus.seq :=
    fun same => (settled.mark same).trans_le advances.onward.seq
  constructor
  · exact advances.reachable settled
  · rw [marks.source, advances.process]
    exact settled.order
  · rw [marks.source, advances.process, marks.logLastSeq]
    exact mark
  · intro a there
    rw [acceptances, marks.accepted]
    exact settled.once a (marks.streamed ▸ there)
  · rw [marks.accepted, marks.source, marks.logLastSeq]
    exact settled.low
  · intro a there
    exact settled.origin_grow advances.grows (marks.streamed ▸ there)
  · rw [marks.source, advances.process, marks.level, marks.logLastSeq]
    intro same item there high low
    obtain ⟨new, -, above, ring⟩ := advances.onward.numbered
    rcases ring item there with there | added
    · exact advances.known settled (settled.ring same item there high low)
    · have late := above item added
      have early := settled.mark same
      omega

/-- A stream goes on with the process that serves it. -/
theorem Connected.advance {c c' : LogConnection} {bus : LogBus} {sub : Subscriber}
    {handled : List LogItem} (connected : s.Connected c bus sub handled)
    (settled : s.Settled setup) (advances : Advances setup s t)
    (process : c'.process = c.process) (queue : c'.queue = c.queue)
    (shown : ∀ bus' sub', t.busOf c.process = some bus' → bus'.objects[c.queue]? = some sub' →
      LogBus.Continues sub sub' → sub'.backlog ++ sub'.read = handled ++ c'.wire ++ c'.replay) :
    ∃ bus sub, t.Connected c' bus sub handled := by
  have marks := advances.marks
  obtain ⟨bus', known, later⟩ := advances.grows.bus connected.known
  obtain ⟨sub', object, goesOn⟩ := later.object connected.object
  refine ⟨bus', sub', process ▸ known, queue ▸ object, ?_, ?_, shown _ _ known object goesOn,
    ?_, ?_, ?_⟩
  · rw [goesOn.minLevel, marks.level]
    exact connected.level
  · rw [marks.source, process]
    exact connected.order
  · rw [marks.streamed, process, queue]
    exact connected.came
  · rw [marks.source, marks.logLastSeq, goesOn.backlog, process]
    exact fun same item there low =>
      advances.known settled (connected.replayed same item there low)
  · rw [marks.source, marks.logLastSeq, goesOn.since, process]
    intro same item there low
    rcases busOf_eq_some.mp known with gone | ⟨here, rfl⟩
    · have gone : s.busOf c.process = some bus' := busOf_eq_some.mpr (.inl (advances.past ▸ gone))
      obtain rfl := Option.some.inj (connected.known.symm.trans gone)
      exact connected.raised same item there low
    · have now : c.process = s.process := here.trans advances.process
      have running : bus = s.bus := by
        have known := connected.known
        rw [now, busOf_process] at known
        exact (Option.some.inj known).symm
      obtain ⟨new, split, above, -⟩ := advances.onward.numbered
      rw [split, List.drop_append, List.mem_append] at there
      rcases there with there | added
      · exact connected.raised same item (running ▸ there) low
      · have late := above item (List.mem_of_mem_drop added)
        have early := settled.mark (same.symm.trans now)
        omega

/-! ## The page reads a record -/

section Handling

variable {c : LogConnection} {item : LogItem} {rest : List LogItem} {bus : LogBus}
  {sub : Subscriber} {handled : List LogItem}

/-- The record that comes next on a stream. -/
structure Next (setup : LogBusSetup) (s : LogTab) (c : LogConnection) (item : LogItem)
    (rest : List LogItem) (bus : LogBus) (sub : Subscriber) (handled : List LogItem) : Prop where
  settled : s.Settled setup
  connected : s.Connected c bus sub handled
  wire : c.wire = item :: rest

theorem Next.shown (next : Next setup s c item rest bus sub handled) :
    sub.backlog ++ sub.read = handled ++ item :: (rest ++ c.replay) := by
  rw [next.connected.shown, next.wire, List.append_assoc, List.cons_append]

theorem Next.listed (next : Next setup s c item rest bus sub handled) :
    item ∈ sub.backlog ++ sub.read := by
  rw [next.shown]
  exact List.mem_append_right _ List.mem_cons_self

theorem Next.sound (next : Next setup s c item rest bus sub handled) : bus.Sound :=
  next.settled.sound next.connected.known

theorem Next.ordered (next : Next setup s c item rest bus sub handled) :
    (handled ++ item :: (rest ++ c.replay)).Pairwise fun a b => a.seq < b.seq := by
  have ordered := LogBus.stream_ordered next.sound next.connected.object
  rw [Subscriber.received, ← List.append_assoc] at ordered
  rw [← next.shown]
  exact (List.pairwise_append.mp ordered).1

theorem Next.before (next : Next setup s c item rest bus sub handled) {h : LogItem}
    (there : h ∈ handled) : h.seq < item.seq :=
  (List.pairwise_append.mp next.ordered).2.2 h there item List.mem_cons_self

/-- What the stream has shown up to the record, the page has read. -/
theorem Next.upto (next : Next setup s c item rest bus sub handled) {x : LogItem}
    (there : x ∈ sub.backlog ++ sub.read) (low : x.seq ≤ item.seq) : x ∈ handled ++ [item] := by
  rw [next.shown, List.mem_append, List.mem_cons] at there
  rw [List.mem_append, List.mem_singleton]
  rcases there with there | same | beyond
  · exact .inl there
  · exact .inr same
  · have above := (List.pairwise_cons.mp (List.pairwise_append.mp next.ordered).2.1).1 x beyond
    omega

/-- What is in the queue still comes later. -/
theorem Next.after (next : Next setup s c item rest bus sub handled) {x : LogItem}
    (there : x ∈ sub.queue) : item.seq < x.seq := by
  have ordered := LogBus.stream_ordered next.sound next.connected.object
  rw [Subscriber.received, ← List.append_assoc] at ordered
  exact (List.pairwise_append.mp ordered).2.2 item next.listed x there

/-- A record in sight below the watermark has been read before. -/
theorem Next.known (next : Next setup s c item rest bus sub handled) (sight : s.InSight c item)
    (low : item.seq ≤ s.view.logLastSeq) :
    ∃ a ∈ s.view.streamed, a.process = c.process ∧ a.item.seq = item.seq := by
  obtain ⟨same, unskipped⟩ := sight low
  have connected := next.connected
  rcases List.mem_append.mp next.listed with old | read
  · exact (connected.replayed same item old low).resolve_right unskipped
  · obtain ⟨x, numbered, seq⟩ := LogBus.seq_mem_drop next.sound connected.object
      (List.mem_append_left sub.queue read)
    obtain ⟨h, there, above⟩ := connected.raised same x numbered (seq ▸ low)
    have below := next.before there
    omega

/-- A record above the watermark has not been accepted before. -/
theorem Next.unaccepted (next : Next setup s c item rest bus sub handled)
    (high : s.view.logLastSeq < item.seq) {a : Arrival} (there : a ∈ s.view.accepted) :
    ¬ (a.process = c.process ∧ a.item.seq = item.seq) := by
  rintro ⟨process, seq⟩
  have order := next.connected.order
  rcases next.settled.low a there with older | ⟨same, low⟩
  · omega
  · omega

/-- The tab after the page has read the record. -/
def reading (s : LogTab) (c : LogConnection) (item : LogItem) (rest : List LogItem) : LogTab :=
  { s with
    view := { s.view with stream := some { c with wire := rest } }.handleLogEvent
      ⟨c.process, c.queue, item⟩ }

theorem streamed_reading (s : LogTab) (c : LogConnection) (item : LogItem)
    (rest : List LogItem) : (s.reading c item rest).view.streamed =
      s.view.streamed ++ [⟨c.process, c.queue, item⟩] := by
  simp only [reading, LogView.handleLogEvent]
  split <;> rfl

theorem stream_reading (s : LogTab) (c : LogConnection) (item : LogItem) (rest : List LogItem) :
    (s.reading c item rest).view.stream = some { c with wire := rest } := by
  simp only [reading, LogView.handleLogEvent]
  split <;> rfl

theorem level_reading (s : LogTab) (c : LogConnection) (item : LogItem) (rest : List LogItem) :
    (s.reading c item rest).view.level = s.view.level := by
  simp only [reading, LogView.handleLogEvent]
  split <;> rfl

theorem grows_reading (s : LogTab) (c : LogConnection) (item : LogItem) (rest : List LogItem) :
    Grows s (s.reading c item rest) :=
  ⟨fun known => ⟨_, known, .refl _⟩, fun a there => by
    rw [streamed_reading]
    exact List.mem_append_left _ there⟩

theorem Next.grow (next : Next setup s c item rest bus sub handled) {p seq : Nat}
    (known : s.Known p seq) : (s.reading c item rest).Known p seq :=
  known.grow next.settled (fun known => next.settled.sound known) (grows_reading s c item rest)

/-- The page knows what the stream has shown up to the record. -/
theorem Next.knows (next : Next setup s c item rest bus sub handled) {x : LogItem}
    (there : x ∈ sub.backlog ++ sub.read) (low : x.seq ≤ item.seq) :
    (s.reading c item rest).Known c.process x.seq := by
  refine .inl ⟨⟨c.process, c.queue, x⟩, ?_, rfl, rfl⟩
  rw [streamed_reading, List.mem_append, List.mem_singleton]
  rcases List.mem_append.mp (next.upto there low) with there | last
  · exact .inl (next.connected.came x there)
  · exact .inr (by rw [List.mem_singleton.mp last])

/-- Of what the ring has up to the record, the page knows all. -/
theorem Next.ring (next : Next setup s c item rest bus sub handled) {x : LogItem}
    (there : x ∈ bus.buffer) (high : s.view.level.levelno ≤ x.levelno)
    (low : x.seq ≤ item.seq) : (s.reading c item rest).Known c.process x.seq := by
  have connected := next.connected
  have client := next.sound.client connected.object
  rcases client.replayed x there (connected.level ▸ high) with old | numbered
  · exact next.knows (List.mem_append_left _ old) low
  · by_cases came : x.seq ∈ sub.received.map (·.seq)
    · obtain ⟨y, came, same⟩ := List.mem_map.mp came
      rw [← same] at low ⊢
      rcases List.mem_append.mp came with read | queued
      · exact next.knows (List.mem_append_right _ read) low
      · have above := next.after queued
        omega
    · refine .inr ⟨⟨c.process, c.queue, item⟩, ?_, rfl, ?_, bus, connected.known, sub,
        connected.object, List.mem_map_of_mem numbered, came⟩
      · rw [streamed_reading]
        exact List.mem_append_right _ (List.mem_singleton_self _)
      · rcases List.mem_append.mp next.listed with old | read
        · have below := LogBus.backlog_below next.sound connected.object old numbered
          omega
        · refine lt_of_le_of_ne low fun same => came ?_
          exact same ▸ List.mem_map_of_mem (List.mem_append_left _ read)

theorem Next.origin (next : Next setup s c item rest bus sub handled) :
    ∀ a ∈ (s.reading c item rest).view.streamed, ∃ bus sub,
      (s.reading c item rest).busOf a.process = some bus ∧ bus.objects[a.queue]? = some sub ∧
        a.item ∈ sub.backlog ++ sub.read := by
  rw [streamed_reading]
  intro a there
  rcases List.mem_append.mp there with there | last
  · exact next.settled.origin a there
  · rw [List.mem_singleton.mp last]
    exact ⟨bus, sub, next.connected.known, next.connected.object, next.listed⟩

theorem Next.came (next : Next setup s c item rest bus sub handled) :
    ∀ h ∈ handled ++ [item], ⟨c.process, c.queue, h⟩ ∈ (s.reading c item rest).view.streamed := by
  rw [streamed_reading]
  intro h there
  rcases List.mem_append.mp there with there | last
  · exact List.mem_append_left _ (next.connected.came h there)
  · rw [List.mem_singleton.mp last]
    exact List.mem_append_right _ (List.mem_singleton_self _)

/-- A record that is not accepted changes nothing else. -/
theorem reading_low (low : item.seq ≤ s.view.logLastSeq) : s.reading c item rest =
    { s with view := { s.view with
        stream := some { c with wire := rest }
        streamed := s.view.streamed ++ [⟨c.process, c.queue, item⟩] } } := by
  simp only [reading, LogView.handleLogEvent, if_pos low]

theorem Next.suppressed (next : Next setup s c item rest bus sub handled)
    (sight : s.InSight c item) (low : item.seq ≤ s.view.logLastSeq) :
    (s.reading c item rest).Settled setup ∧
      (s.reading c item rest).Connected { c with wire := rest } bus sub (handled ++ [item]) := by
  have settled := next.settled
  have connected := next.connected
  have origin := next.origin
  have came := next.came
  have grow : ∀ {p seq}, s.Known p seq → (s.reading c item rest).Known p seq := next.grow
  obtain ⟨a, there, process, seq⟩ := next.known sight low
  rw [reading_low low] at origin came grow ⊢
  refine ⟨⟨settled.runs, settled.order, settled.mark, ?_, settled.low, origin, ?_⟩,
    connected.known, connected.object, connected.level, connected.order, ?_, came, ?_, ?_⟩
  · intro b read
    rcases List.mem_append.mp read with read | last
    · exact settled.once b read
    · have once := settled.once a there
      rw [acceptances, process, seq] at once
      rw [List.mem_singleton.mp last]
      exact once
  · exact fun same x there high below => grow (settled.ring same x there high below)
  · rw [next.shown, List.append_assoc, List.append_assoc, List.singleton_append]
  · exact fun same x there below => grow (connected.replayed same x there below)
  · intro same x there below
    obtain ⟨h, there, above⟩ := connected.raised same x there below
    exact ⟨h, List.mem_append_left _ there, above⟩

/-- A record that is accepted sets the marks. -/
theorem reading_high (c : LogConnection) (rest : List LogItem)
    (high : s.view.logLastSeq < item.seq) :
    (s.reading c item rest).view.logLastSeq = item.seq ∧
      (s.reading c item rest).view.source = c.process ∧
        (s.reading c item rest).view.accepted =
          s.view.accepted ++ [⟨c.process, c.queue, item⟩] := by
  simp only [reading, LogView.handleLogEvent, if_neg (not_le.mpr high)]
  exact ⟨trivial, trivial, trivial⟩

theorem Next.accepted (next : Next setup s c item rest bus sub handled)
    (high : s.view.logLastSeq < item.seq) :
    (s.reading c item rest).Settled setup ∧
      (s.reading c item rest).Connected { c with wire := rest } bus sub (handled ++ [item]) := by
  have settled := next.settled
  have connected := next.connected
  obtain ⟨lastSeq, source, accepted⟩ := reading_high c rest high
  have process : c.process ≤ s.process := by
    rcases busOf_eq_some.mp connected.known with gone | ⟨same, -⟩
    · exact (Objects.lt_length gone).le
    · exact same.le
  have running : c.process = s.process → bus = s.bus := by
    intro same
    have known := connected.known
    rw [same, busOf_process] at known
    exact (Option.some.inj known).symm
  constructor
  · constructor
    · exact settled.runs
    · rw [source]
      exact process
    · rw [source, lastSeq]
      intro same
      have numbered : ∃ x ∈ bus.emitted, x.seq = item.seq := by
        rcases List.mem_append.mp next.listed with old | read
        · exact ⟨item, List.mem_of_mem_take ((next.sound.client connected.object).backlog.subset old),
            rfl⟩
        · obtain ⟨x, there, seq⟩ := LogBus.seq_mem_drop next.sound connected.object
            (List.mem_append_left sub.queue read)
          exact ⟨x, List.mem_of_mem_drop there, seq⟩
      obtain ⟨x, there, seq⟩ := numbered
      rw [← seq]
      exact running same ▸ (next.sound.below x there).2
    · intro a there
      rw [acceptances, accepted, List.countP_append, List.countP_singleton]
      rw [streamed_reading] at there
      rcases List.mem_append.mp there with there | last
      · have once := settled.once a there
        obtain ⟨e, listed, same⟩ := List.countP_pos_iff.mp (Nat.lt_of_lt_of_eq Nat.one_pos once.symm)
        rw [decide_eq_true_eq] at same
        rw [acceptances] at once
        rw [once, if_neg]
        rw [decide_eq_true_eq]
        rintro ⟨process, seq⟩
        exact next.unaccepted high listed ⟨same.1.trans process.symm, same.2.trans seq.symm⟩
      · rw [List.mem_singleton.mp last, List.countP_eq_zero.mpr, if_pos (by simp)]
        intro e listed
        rw [decide_eq_true_eq]
        exact next.unaccepted high listed
    · rw [accepted, source, lastSeq]
      intro a there
      rcases List.mem_append.mp there with there | last
      · have order := connected.order
        rcases settled.low a there with older | ⟨same, low⟩
        · omega
        · omega
      · rw [List.mem_singleton.mp last]
        exact .inr ⟨rfl, le_rfl⟩
    · exact next.origin
    · rw [source, lastSeq, level_reading]
      intro same x there level low
      have there : x ∈ bus.buffer := running same ▸ there
      exact same ▸ next.ring there level low
  · refine ⟨connected.known, connected.object, ?_, ?_, ?_, next.came, ?_, ?_⟩
    · rw [level_reading]
      exact connected.level
    · rw [source]
    · rw [next.shown, List.append_assoc, List.append_assoc, List.singleton_append]
    · rw [lastSeq]
      exact fun _ x there low => next.knows (List.mem_append_left _ there) low
    · rw [lastSeq]
      exact fun _ x _ low => ⟨item, List.mem_append_right _ (List.mem_singleton_self _), low⟩

theorem kept_handle (kept : s.Kept setup) (sees : s.sees .handle) (taken : s.handle = some t) :
    t.Kept setup := by
  simp only [handle] at taken
  split at taken
  · next c stream =>
      split at taken <;> cases taken
      next item rest wire =>
      obtain ⟨bus, sub, handled, connected⟩ := kept.stream stream
      have next : Next setup s c item rest bus sub handled := ⟨kept.settled, connected, wire⟩
      have sight := sees c stream item (by rw [wire]; rfl)
      have both : (s.reading c item rest).Settled setup ∧
          (s.reading c item rest).Connected { c with wire := rest } bus sub (handled ++ [item]) := by
        rcases Nat.lt_or_ge s.view.logLastSeq item.seq with high | low
        · exact next.accepted high
        · exact next.suppressed sight low
      refine ⟨both.1, fun {c'} there => ?_⟩
      have there : (s.reading c item rest).view.stream = some c' := there
      rw [stream_reading] at there
      exact Option.some.inj there ▸ ⟨bus, sub, _, both.2⟩
  · cases taken

end Handling

/-! ## The other steps -/

theorem kept_init : (init : LogTab).Kept setup := by
  refine ⟨⟨fun known => ?_, le_rfl, fun _ => Nat.one_pos, nofun, nofun, nofun, nofun⟩, nofun⟩
  rcases busOf_eq_some.mp known with gone | ⟨-, rfl⟩
  · cases gone
  · exact System.reachable_init

theorem Kept.advance (kept : s.Kept setup) (advances : Advances setup s t)
    (stream : ∀ {c'}, t.view.stream = some c' →
      ∃ bus sub handled, t.Connected c' bus sub handled) : t.Kept setup :=
  ⟨kept.settled.advance advances, stream⟩

theorem advances_of_bus {a : LogBusAct} {bus : LogBus} (settled : s.Settled setup)
    (taken : s.bus.step setup a = some bus) (view : LogView) (marks : SameMarks s.view view) :
    Advances setup s { s with bus := bus, view := view } :=
  ⟨rfl, LogBus.onward_step (settled.sound (busOf_process s)) taken,
    (settled.runs (busOf_process s)).step trivial taken, marks⟩

theorem advances_of_view (settled : s.Settled setup) (view : LogView)
    (marks : SameMarks s.view view) : Advances setup s { s with view := view } :=
  ⟨rfl, .refl _, settled.runs (busOf_process s), marks⟩

theorem kept_bus (kept : s.Kept setup) {a : LogBusAct} {bus : LogBus}
    (taken : s.bus.step setup a = some bus)
    (apart : ∀ {c}, s.view.stream = some c → c.process = s.process → a ≠ .get c.queue) :
    Kept setup { s with bus := bus } := by
  have advances := advances_of_bus kept.settled taken s.view ⟨rfl, rfl, rfl, rfl, rfl⟩
  refine kept.advance advances fun {c} there => ?_
  obtain ⟨before, sub, handled, connected⟩ := kept.stream there
  refine (connected.advance kept.settled advances rfl rfl ?_).elim fun after ⟨sub', next⟩ =>
    ⟨after, sub', handled, next⟩
  intro after sub' known object goesOn
  rw [goesOn.backlog, ← connected.shown]
  congr 1
  rcases busOf_eq_some.mp known with gone | ⟨here, rfl⟩
  · have same : s.busOf c.process = some after := busOf_eq_some.mpr (.inl gone)
    obtain rfl := Option.some.inj (connected.known.symm.trans same)
    rw [Option.some.inj (object.symm.trans connected.object)]
  · have here : c.process = s.process := here
    have known := connected.known
    rw [here, busOf_process] at known
    obtain rfl := Option.some.inj known
    exact (LogBus.later_step (kept.settled.sound (busOf_process s)) taken).2
      (apart there here) connected.object object

theorem kept_disconnect (kept : s.Kept setup) :
    Kept setup { s with view := { s.view with stream := none } } :=
  kept.advance (advances_of_view kept.settled _ ⟨rfl, rfl, rfl, rfl, rfl⟩) nofun

theorem kept_clear (kept : s.Kept setup) :
    Kept setup { s with view := { s.view with logRecords := [] } } := by
  have advances := advances_of_view kept.settled { s.view with logRecords := [] }
    ⟨rfl, rfl, rfl, rfl, rfl⟩
  refine kept.advance advances fun {c} there => ?_
  obtain ⟨bus, sub, handled, connected⟩ := kept.stream there
  exact ⟨bus, sub, handled, connected.known, connected.object, connected.level, connected.order,
    connected.shown, connected.came, connected.replayed, connected.raised⟩

theorem kept_reset (kept : s.Kept setup) (level : LogLevel) :
    Kept setup { s with view := { s.view.reset with level := level, stream := none } } := by
  have settled := kept.settled
  refine ⟨⟨settled.runs, settled.order, fun _ => ?_, nofun, nofun, nofun, ?_⟩, nofun⟩
  · exact (settled.sound (busOf_process s)).positive
  · intro _ item there _ low
    have sound := settled.sound (busOf_process s)
    have positive := (sound.below item (sound.buffered.subset there)).1
    exact absurd low (not_le.mpr positive)

theorem kept_restart (kept : s.Kept setup) :
    Kept setup { s with past := s.past ++ [s.bus], bus := .init } := by
  have settled := kept.settled
  generalize next : ({ s with past := s.past ++ [s.bus], bus := .init } : LogTab) = t
  have process : t.process = s.process + 1 := by
    rw [← next]
    exact List.length_append
  have view : t.view = s.view := by rw [← next]
  have known : ∀ {p bus}, s.busOf p = some bus → t.busOf p = some bus := by
    intro p bus known
    rw [← next]
    exact busOf_eq_some.mpr (.inl known)
  have grows : Grows s t :=
    ⟨fun there => ⟨_, known there, .refl _⟩, fun a there => view ▸ there⟩
  have runs : ∀ {p bus}, t.busOf p = some bus → (logBus setup).Reachable (fun _ _ => True) bus := by
    intro p bus there
    rw [← next] at there
    rcases busOf_eq_some.mp there with gone | ⟨-, rfl⟩
    · exact settled.runs gone
    · exact System.reachable_init
  have knows : ∀ {p seq}, s.Known p seq → t.Known p seq :=
    fun known => known.grow settled (fun there => LogBus.sound (runs there)) grows
  have older : t.view.source ≠ t.process := by
    rw [view, process]
    exact (Nat.lt_succ_of_le settled.order).ne
  refine ⟨⟨runs, ?_, fun same => absurd same older, ?_, ?_, ?_, fun same => absurd same older⟩, ?_⟩
  · rw [view, process]
    exact settled.order.trans (Nat.le_succ _)
  · intro a there
    rw [acceptances, view]
    exact settled.once a (view ▸ there)
  · rw [view]
    exact settled.low
  · intro a there
    exact settled.origin_grow grows (view ▸ there)
  · intro c there
    obtain ⟨bus, sub, handled, connected⟩ := kept.stream (view ▸ there)
    refine ⟨bus, sub, handled, known connected.known, connected.object, ?_, ?_, connected.shown,
      ?_, ?_, ?_⟩
    · exact view ▸ connected.level
    · exact view ▸ connected.order
    · exact view ▸ connected.came
    · rw [view]
      exact fun same item there low => knows (connected.replayed same item there low)
    · exact view ▸ connected.raised

theorem kept_connect (kept : s.Kept setup) : (s.connect setup).Kept setup := by
  simp only [connect]
  split
  · have settled := kept.settled
    have sound := settled.sound (busOf_process s)
    generalize stream : (⟨s.process, s.bus.objects.length,
      (s.bus.subscriber s.view.level.levelno).backlog, []⟩ : LogConnection) = c
    have advances := advances_of_bus settled (a := .subscribe s.view.level.levelno) rfl
      { s.view with stream := some c } ⟨rfl, rfl, rfl, rfl, rfl⟩
    refine kept.advance advances fun {c'} there => ?_
    obtain rfl := Option.some.inj there
    rw [← stream] at advances ⊢
    refine ⟨_, s.bus.subscriber s.view.level.levelno, [], busOf_process _, ?_, rfl, settled.order,
      ?_, nofun, ?_, ?_⟩
    · exact List.getElem?_concat_length
    · simp [LogBus.subscriber]
    · intro same item old low
      obtain ⟨there, high⟩ := List.mem_filter.mp old
      exact advances.known settled
        (settled.ring same.symm item there (of_decide_eq_true high) low)
    · intro _ item there
      have nothing : (s.bus.emitted.drop s.bus.emitted.length) = [] := List.drop_length
      exact absurd (nothing ▸ there : item ∈ []) List.not_mem_nil
  · exact kept_disconnect kept

/-- The server yields the next record of the backlog. -/
theorem kept_replay (kept : s.Kept setup) {c : LogConnection} (stream : s.view.stream = some c)
    {item : LogItem} {rest : List LogItem} (replay : c.replay = item :: rest) :
    Kept setup { s with view := { s.view with
      stream := some { c with replay := rest, wire := c.wire ++ [item] } } } := by
  have advances := advances_of_view kept.settled { s.view with
    stream := some { c with replay := rest, wire := c.wire ++ [item] } }
    ⟨rfl, rfl, rfl, rfl, rfl⟩
  refine kept.advance advances fun there => ?_
  obtain rfl := Option.some.inj there
  obtain ⟨bus, sub, handled, connected⟩ := kept.stream stream
  refine ⟨bus, sub, handled, connected.known, connected.object, connected.level, connected.order,
    ?_, connected.came, connected.replayed, connected.raised⟩
  rw [connected.shown, replay]
  simp

/-- The server yields what it has read from the queue. -/
theorem kept_read (kept : s.Kept setup) {c : LogConnection} (stream : s.view.stream = some c)
    (here : c.process = s.process) (replay : c.replay = []) {item : LogItem} {bus : LogBus}
    (head : (s.bus.objects[c.queue]?).bind (·.queue.head?) = some item)
    (get : s.bus.get c.queue = some bus) :
    Kept setup { s with bus := bus, view := { s.view with
      stream := some { c with wire := c.wire ++ [item] } } } := by
  have advances := advances_of_bus kept.settled (a := .get c.queue) get { s.view with
    stream := some { c with wire := c.wire ++ [item] } } ⟨rfl, rfl, rfl, rfl, rfl⟩
  refine kept.advance advances fun there => ?_
  obtain rfl := Option.some.inj there
  obtain ⟨before, sub, handled, connected⟩ := kept.stream stream
  have running : before = s.bus := by
    have known := connected.known
    rw [here, busOf_process] at known
    exact (Option.some.inj known).symm
  subst running
  obtain ⟨sub₀, item₀, rest, object, queue, rfl⟩ := LogBus.object_get get
  obtain rfl := Option.some.inj (connected.object.symm.trans object)
  rw [object, Option.bind_some, queue] at head
  obtain rfl := Option.some.inj head
  have process : ({ c with wire := c.wire ++ [item₀] } : LogConnection).process = c.process := rfl
  refine (connected.advance kept.settled advances process rfl ?_).elim fun after ⟨sub', next⟩ =>
    ⟨after, sub', handled, next⟩
  intro after sub' known object' _
  rw [here] at known
  obtain rfl := Option.some.inj ((busOf_process _).symm.trans known)
  rw [List.getElem?_set_self (Objects.lt_length object)] at object'
  obtain rfl := Option.some.inj object'
  rw [← List.append_assoc, connected.shown, replay]
  simp

theorem kept_yield (kept : s.Kept setup) (taken : s.yield = some t) : t.Kept setup := by
  simp only [yield] at taken
  split at taken
  · cases taken
  · next c stream =>
      split at taken
      · next here =>
          split at taken
          · next replay =>
              cases taken
              exact kept_replay kept stream replay
          · next replay =>
              split at taken <;> cases taken
              next head get => exact kept_read kept stream here.1 replay head get
      · cases taken

/-- A step of the process that runs, which gets nothing from the queue that the page reads. -/
theorem step_bus {a : LogBusAct} (taken : s.step setup (.bus a) = some t) :
    ∃ bus, s.bus.step setup a = some bus ∧ t = { s with bus := bus } ∧
      ∀ n, a = .get n → s.reads n = false := by
  cases a with
  | get n =>
      simp only [step] at taken
      split at taken
      · cases taken
      · next unread =>
          obtain ⟨bus, moved, rfl⟩ := Option.map_eq_some_iff.mp taken
          refine ⟨bus, moved, rfl, fun m same => ?_⟩
          cases same
          exact eq_false_of_ne_true unread
  | enter | number | handOff | deliver | subscribe | unsubscribe | detach =>
      simp only [step, Option.map_eq_some_iff] at taken
      obtain ⟨bus, moved, rfl⟩ := taken
      exact ⟨bus, moved, rfl, fun n same => by cases same⟩

theorem kept_step {a : LogTabAct} (kept : s.Kept setup) (sees : s.sees a)
    (taken : s.step setup a = some t) : t.Kept setup := by
  cases a with
  | bus a =>
      obtain ⟨bus, moved, rfl, unread⟩ := step_bus taken
      refine kept_bus kept moved fun {c} there here same => ?_
      have reads : s.reads c.queue = true := by simp [reads, there, here]
      rw [unread _ same] at reads
      cases reads
  | restart =>
      cases taken
      exact kept_restart kept
  | connect =>
      cases taken
      exact kept_connect kept
  | yield => exact kept_yield kept taken
  | handle => exact kept_handle kept sees taken
  | disconnect =>
      cases taken
      exact kept_disconnect kept
  | changeLevel level =>
      cases taken
      exact kept_reset kept level
  | clear =>
      cases taken
      exact kept_clear kept
  | signOut =>
      cases taken
      exact kept_reset kept s.view.level

theorem kept {s : LogTab} (reached : (logTab setup).Reachable (fun s a => s.sees a) s) :
    s.Kept setup := by
  apply reached.invariant (motive := Kept setup)
  · exact kept_init
  · intro s a t _ kept sees taken
    exact kept_step kept sees taken

/-! ## What the page shows -/

/-- What the server yields is still under way. -/
theorem yield_shows (taken : s.yield = some t) :
    t.view.logRecords = s.view.logRecords ∧ t.view.accepted = s.view.accepted := by
  simp only [yield] at taken
  split at taken
  · cases taken
  · split at taken
    · split at taken
      · cases taken
        exact ⟨rfl, rfl⟩
      · split at taken
        · cases taken
          exact ⟨rfl, rfl⟩
        · cases taken
    · cases taken

/-- Whatever happens, what the page shows is the end of what it has accepted: all of it since the
records were last cleared, up to `LogView.maxLines`. -/
theorem view_shows {guard : LogTab → LogTabAct → Prop} {s : LogTab}
    (reached : (logTab setup).Reachable guard s) : s.view.Shows := by
  apply reached.invariant (motive := fun s => s.view.Shows)
  · exact LogView.shows_init
  · intro s a t _ shows _ taken
    cases a with
    | bus a =>
        obtain ⟨bus, _, rfl, _⟩ := step_bus taken
        exact shows
    | connect =>
        cases taken
        unfold connect
        split
        · exact shows.congr rfl rfl
        · exact shows.congr rfl rfl
    | yield =>
        obtain ⟨records, accepted⟩ := yield_shows taken
        exact shows.congr records accepted
    | handle =>
        have taken : s.handle = some t := taken
        simp only [handle] at taken
        split at taken
        · split at taken
          · cases taken
            exact LogView.shows_handleLogEvent _ (shows.congr rfl rfl)
          · cases taken
        · cases taken
    | restart | disconnect =>
        cases taken
        exact shows.congr rfl rfl
    | clear =>
        cases taken
        exact ⟨List.nil_suffix, Nat.zero_le _⟩
    | changeLevel level =>
        cases taken
        exact s.view.shows_reset.congr rfl rfl
    | signOut =>
        cases taken
        exact s.view.shows_reset.congr rfl rfl

/-! ## Once -/

/-- In every run in which each record that the page reads is numbered above the watermark, or
below one of its own process without an earlier stream having skipped it, whatever the page
has read since its last reset was accepted once. -/
theorem accepted_once {s : LogTab} (reached : (logTab setup).Reachable (fun s a => s.sees a) s)
    {arrival : Arrival} (read : arrival ∈ s.view.streamed) : s.acceptances arrival = 1 :=
  (kept reached).settled.once arrival read

/-- A record's way from its thread to the page. -/
def arrives : List LogTabAct :=
  [.bus (.enter LogBus.warning), .bus .number, .bus .handOff, .bus .deliver, .yield, .handle]

/-- A connection that breaks, and another that replays what the first has shown. -/
def reconnects : List LogTabAct :=
  LogTabAct.connect :: (arrives ++ arrives) ++ [.disconnect, .connect, .yield, .handle, .yield,
    .handle] ++ arrives

/-- What is replayed is recognised. -/
theorem accepted_once_reconnects : ∃ (s : LogTab) (first replayed : Arrival),
    s.view.streamed[0]? = some first ∧ s.view.streamed[2]? = some replayed ∧
      first.queue ≠ replayed.queue ∧ first.item = replayed.item ∧
        s.acceptances first = 1 ∧ s.acceptances replayed = 1 := by
  obtain ⟨s, path, seen⟩ := System.reaches (logTab LogBus.plainLog) (fun s a => s.sees a)
    (fun s => (s.view.streamed[0]?.bind fun (first : Arrival) =>
      s.view.streamed[2]?.map fun (replayed : Arrival) =>
        decide (first.queue ≠ replayed.queue ∧ first.item = replayed.item)) = some true)
    reconnects (fun _ _ _ => trivial) (by decide +kernel)
  obtain ⟨first, there, seen⟩ := Option.bind_eq_some_iff.mp seen
  obtain ⟨replayed, there', seen⟩ := Option.map_eq_some_iff.mp seen
  have reached := path.mono fun _ _ both => both.1
  obtain ⟨apart, same⟩ := of_decide_eq_true seen
  exact ⟨s, first, replayed, there, there', apart, same,
    accepted_once reached (List.mem_of_getElem? there),
    accepted_once reached (List.mem_of_getElem? there')⟩

/-- Two records of one process, and one of the next. -/
def restarts : List LogTabAct :=
  LogTabAct.connect :: (arrives ++ arrives) ++ [.restart, .disconnect, .connect] ++ arrives

/-- A page that has seen two records of one process does not show the first of the next. -/
theorem restart_unseen : ∃ (s : LogTab) (arrival : Arrival),
    (logTab LogBus.plainLog).Reachable (fun _ _ => True) s ∧ arrival ∈ s.view.streamed ∧
      arrival.process = 1 ∧ s.acceptances arrival = 0 := by
  obtain ⟨s, path, unseen⟩ := System.reaches (logTab LogBus.plainLog) (fun _ _ => True)
    (fun s => (s.view.streamed.any fun arrival =>
      arrival.process = 1 ∧ s.acceptances arrival = 0) = true)
    restarts (fun _ _ _ => trivial) (by decide +kernel)
  obtain ⟨arrival, there, unseen⟩ := List.any_eq_true.mp unseen
  exact ⟨s, arrival, path.mono fun _ _ _ => trivial, there, of_decide_eq_true unseen⟩

end LogTab

end Zorkbot.Admin
