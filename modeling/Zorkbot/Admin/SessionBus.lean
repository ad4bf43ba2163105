/-
# The transcript bus

`SessionBus` has a channel for each session that something was published for: the last
events, for whoever opens a stream, and a queue for each open stream. A publisher never
waits, so a queue that is full does not get the event, not even the one that says that the
session has ended. As long as no publisher finds a subscribed queue full, a stream is a
contiguous part of what was published for the session and goes on to its end.
-/

import Zorkbot.Data.Deque
import Zorkbot.Data.Objects
import Zorkbot.Data.Table
import Zorkbot.Transition.System
import Mathlib.Data.Rat.Defs

namespace Zorkbot.Admin

open Transition
open scoped List

universe u

inductive BusEvent
  | command
  | output
  | watchers
  | sessionEnd
  deriving DecidableEq

/-- What is published. -/
structure BusItem (δ : Type u) where
  event : BusEvent
  data : δ
  publishedAt : ℚ
  deriving DecidableEq

/-- `_SessionChannel`, with the queues by number. -/
structure SessionChannel (δ : Type u) where
  buffer : List (BusItem δ)
  subscribers : List Nat

/-- A queue that `subscribe` made, with the session it was made for, the backlog that came
with it, and what its stream has read. -/
structure BusQueue (δ : Type u) where
  session : Int
  queue : List (BusItem δ)
  backlog : List (BusItem δ)
  read : List (BusItem δ)
  deriving DecidableEq

namespace BusQueue

variable {δ : Type u}

/-- The size of a queue. -/
def maxsize : Nat := 256

/-- What came to the queue. -/
def received (q : BusQueue δ) : List (BusItem δ) := q.read ++ q.queue

/-- What the stream shows once the queue is read. -/
def shown (q : BusQueue δ) : List (BusItem δ) := q.backlog ++ q.received

/-- `put_nowait`, and nothing if the queue is full. -/
def offer (item : BusItem δ) (q : BusQueue δ) : BusQueue δ :=
  if q.queue.length < maxsize then { q with queue := q.queue ++ [item] } else q

end BusQueue

/-- The end of a session as it was published, and the queues subscribed at that moment. -/
structure BusEnd (δ : Type u) where
  session : Int
  item : BusItem δ
  subscribers : List Nat

/-- The fields of `SessionBus` with the queues by number, and beside them what was ever
published and the ends. -/
structure SessionBus (δ : Type u) where
  channels : Table Int (SessionChannel δ)
  streamCount : Nat
  objects : List (BusQueue δ)
  published : List (Int × BusItem δ)
  ends : List (BusEnd δ)

structure BusSetup where
  bufferSize : Nat
  maxStreams : Nat

inductive BusAct (δ : Type u)
  | publish (num : Int) (event : BusEvent) (data : δ) (now : ℚ)
  | subscribe (num : Int)
  | unsubscribe (num : Int) (n : Nat)
  /-- A stream reads. -/
  | get (n : Nat)

namespace SessionBus

variable {δ : Type u}

def init : SessionBus δ := ⟨.empty, 0, [], [], []⟩

variable (setup : BusSetup)

/-- `_channel`, without storing a new one. -/
def channel (s : SessionBus δ) (num : Int) : SessionChannel δ :=
  (s.channels.get num).getD ⟨[], []⟩

def publish (num : Int) (event : BusEvent) (data : δ) (now : ℚ) (s : SessionBus δ) :
    SessionBus δ :=
  let chan := s.channel num
  let item := ⟨event, data, now⟩
  let channels := s.channels.set num
    { chan with buffer := Deque.append setup.bufferSize chan.buffer item }
  { s with
    channels := if event = .sessionEnd then channels.erase num else channels
    objects := Objects.updateEach chan.subscribers (BusQueue.offer item) s.objects
    published := s.published ++ [(num, item)]
    ends := if event = .sessionEnd then s.ends ++ [⟨num, item, chan.subscribers⟩] else s.ends }

def canSubscribe (s : SessionBus δ) : Bool := s.streamCount < setup.maxStreams

def subscribe (num : Int) (s : SessionBus δ) : SessionBus δ :=
  let chan := s.channel num
  { s with
    channels := s.channels.set num
      { chan with subscribers := chan.subscribers ++ [s.objects.length] }
    streamCount := s.streamCount + 1
    objects := s.objects ++ [⟨num, [], chan.buffer, []⟩] }

def unsubscribe (num : Int) (n : Nat) (s : SessionBus δ) : SessionBus δ :=
  { s with
    channels :=
      match s.channels.get num with
      | some chan =>
          s.channels.set num { chan with subscribers := chan.subscribers.filter (· ≠ n) }
      | none => s.channels
    streamCount := s.streamCount - 1 }

def get (n : Nat) (s : SessionBus δ) : Option (SessionBus δ) :=
  match s.objects[n]? with
  | some q =>
      match q.queue with
      | item :: rest =>
          let after := { q with queue := rest, read := q.read ++ [item] }
          some { s with objects := s.objects.set n after }
      | [] => none
  | none => none

def step (s : SessionBus δ) : BusAct δ → Option (SessionBus δ)
  | .publish num event data now => some (s.publish setup num event data now)
  | .subscribe num => some (s.subscribe num)
  | .unsubscribe num n => some (s.unsubscribe num n)
  | .get n => s.get n

/-- What was published for a session. -/
def events (s : SessionBus δ) (num : Int) : List (BusItem δ) :=
  (s.published.filter fun entry => entry.1 = num).map (·.2)

/-- A publisher finds room in every queue that is subscribed to the session. -/
def roomy (s : SessionBus δ) : BusAct δ → Prop
  | .publish num _ _ _ => ∀ n ∈ (s.channel num).subscribers, ∀ q ∈ s.objects[n]?,
      q.queue.length < BusQueue.maxsize
  | _ => True

instance (s : SessionBus δ) : (a : BusAct δ) → Decidable (s.roomy a)
  | .publish num _ _ _ => inferInstanceAs (Decidable
      (∀ n ∈ (s.channel num).subscribers, ∀ q ∈ s.objects[n]?, _))
  | .subscribe _ | .unsubscribe _ _ | .get _ => .isTrue trivial

end SessionBus

/-- The runs of the bus. -/
def sessionBus (setup : BusSetup) (δ : Type u) : System (SessionBus δ) (BusAct δ) :=
  ⟨.init, SessionBus.step setup⟩

namespace SessionBus

variable {δ : Type u} {setup : BusSetup} {s t : SessionBus δ} {a : BusAct δ}

/-! ## What holds in any run -/

/-- The channels have queues of their own session, and a ring of its last events. -/
structure Sound (s : SessionBus δ) : Prop where
  distinct : ∀ num, (s.channel num).subscribers.Nodup
  known : ∀ {num n}, n ∈ (s.channel num).subscribers →
    ∃ q, s.objects[n]? = some q ∧ q.session = num
  ring : ∀ num, (s.channel num).buffer <:+ s.events num

theorem channel_set (s : SessionBus δ) (num k : Int) (chan : SessionChannel δ) :
    ((s.channels.set num chan).get k).getD ⟨[], []⟩ = if k = num then chan else s.channel k := by
  rw [Table.get_set]
  split <;> rfl

theorem events_publish (num k : Int) (event : BusEvent) (data : δ) (now : ℚ)
    (s : SessionBus δ) : (s.publish setup num event data now).events k =
      s.events k ++ if k = num then [⟨event, data, now⟩] else [] := by
  by_cases same : k = num
  · subst same
    simp [events, publish]
  · simp [events, publish, same, Ne.symm same]

theorem channel_publish (num k : Int) (event : BusEvent) (data : δ) (now : ℚ)
    (s : SessionBus δ) : (s.publish setup num event data now).channel k =
      if k = num then
        if event = .sessionEnd then ⟨[], []⟩
        else { s.channel num with
          buffer := Deque.append setup.bufferSize (s.channel num).buffer ⟨event, data, now⟩ }
      else s.channel k := by
  simp only [channel, publish]
  by_cases ended : event = .sessionEnd
  · simp only [if_pos ended, Table.get_erase, Table.get_set]
    split <;> rfl
  · simp only [if_neg ended, Table.get_set]
    split <;> rfl

theorem object_publish (sound : s.Sound) (num : Int) (event : BusEvent) (data : δ) (now : ℚ)
    (n : Nat) : (s.publish setup num event data now).objects[n]? =
      if n ∈ (s.channel num).subscribers then
        (s.objects[n]?).map (·.offer ⟨event, data, now⟩) else s.objects[n]? :=
  Objects.getElem?_updateEach (sound.distinct num) _ _ _

theorem offer_session (item : BusItem δ) (q : BusQueue δ) : (q.offer item).session = q.session := by
  unfold BusQueue.offer
  split <;> rfl

theorem subscribers_publish {num k : Int} {event : BusEvent} {data : δ} {now : ℚ} {n : Nat}
    (there : n ∈ ((s.publish setup num event data now).channel k).subscribers) :
    n ∈ (s.channel k).subscribers ∧ (k = num → event ≠ .sessionEnd) := by
  rw [channel_publish] at there
  split at there
  · next same =>
      subst same
      split at there
      · cases there
      · exact ⟨there, fun _ => ‹_›⟩
  · exact ⟨there, fun same => absurd same ‹_›⟩

theorem Sound.publish (sound : s.Sound) (num : Int) (event : BusEvent) (data : δ) (now : ℚ) :
    (s.publish setup num event data now).Sound := by
  constructor
  · intro k
    rw [channel_publish]
    split
    · split
      · exact List.nodup_nil
      · exact sound.distinct num
    · exact sound.distinct k
  · intro k n there
    obtain ⟨q, object, session⟩ := sound.known (subscribers_publish there).1
    rw [object_publish sound, object]
    split
    · exact ⟨_, rfl, (offer_session _ q).trans session⟩
    · exact ⟨q, rfl, session⟩
  · intro k
    rw [channel_publish, events_publish]
    split
    · next same =>
        subst same
        split
        · exact List.nil_suffix
        · obtain ⟨before, split⟩ := sound.ring k
          refine (Deque.append_suffix ..).trans ⟨before, ?_⟩
          rw [← List.append_assoc, split]
    · rw [List.append_nil]
      exact sound.ring k

theorem channel_subscribe (num k : Int) (s : SessionBus δ) : (s.subscribe num).channel k =
    if k = num then { s.channel num with
      subscribers := (s.channel num).subscribers ++ [s.objects.length] } else s.channel k :=
  channel_set s num k _

theorem Sound.subscribe (sound : s.Sound) (num : Int) : (s.subscribe num).Sound := by
  have lower : ∀ {n}, n ∈ (s.channel num).subscribers → n ≠ s.objects.length := by
    intro n there
    obtain ⟨q, object, -⟩ := sound.known there
    exact (Objects.lt_length object).ne
  have kept : ∀ {k n}, n ∈ (s.channel k).subscribers →
      ∃ q, (s.subscribe num).objects[n]? = some q ∧ q.session = k := by
    intro k n there
    obtain ⟨q, object, session⟩ := sound.known there
    exact ⟨q, Objects.getElem?_append_of_some object, session⟩
  constructor
  · intro k
    rw [channel_subscribe]
    split
    · refine List.nodup_append.mpr ⟨sound.distinct num, by simp, fun n there m last => ?_⟩
      rw [List.mem_singleton.mp last]
      exact lower there
    · exact sound.distinct k
  · intro k n there
    rw [channel_subscribe] at there
    split at there
    · next same =>
        subst same
        rcases List.mem_append.mp there with there | last
        · exact kept there
        · rw [List.mem_singleton.mp last]
          exact ⟨_, List.getElem?_concat_length, rfl⟩
    · exact kept there
  · intro k
    rw [channel_subscribe]
    split
    · next same => exact same ▸ sound.ring num
    · exact sound.ring k

theorem channel_unsubscribe (num k : Int) (n : Nat) (s : SessionBus δ) :
    (s.unsubscribe num n).channel k =
      if k = num then { s.channel num with
        subscribers := (s.channel num).subscribers.filter (· ≠ n) } else s.channel k := by
  simp only [channel, unsubscribe]
  cases found : s.channels.get num with
  | none =>
      by_cases same : k = num
      · rw [if_pos same, same, found]
        rfl
      · rw [if_neg same]
  | some chan =>
      simp only [Table.get_set]
      split <;> rfl

theorem Sound.unsubscribe (sound : s.Sound) (num : Int) (n : Nat) :
    (s.unsubscribe num n).Sound := by
  constructor
  · intro k
    rw [channel_unsubscribe]
    split
    · exact (sound.distinct num).filter _
    · exact sound.distinct k
  · intro k m there
    rw [channel_unsubscribe] at there
    split at there
    · next same =>
        subst same
        exact sound.known (List.mem_filter.mp there).1
    · exact sound.known there
  · intro k
    rw [channel_unsubscribe]
    split
    · next same => exact same ▸ sound.ring num
    · exact sound.ring k

theorem object_get {n : Nat} (taken : s.get n = some t) :
    ∃ q item rest, s.objects[n]? = some q ∧ q.queue = item :: rest ∧ t = { s with
      objects := s.objects.set n { q with queue := rest, read := q.read ++ [item] } } := by
  simp only [get] at taken
  split at taken
  · next q there =>
      split at taken <;> cases taken
      exact ⟨_, _, _, there, ‹_›, rfl⟩
  · cases taken

/-- A read moves an event from the queue to what was read. -/
theorem object_of_get {n : Nat} (taken : s.get n = some t) (m : Nat) (after : BusQueue δ)
    (there : t.objects[m]? = some after) : ∃ q, s.objects[m]? = some q ∧
      q.session = after.session ∧ q.shown = after.shown ∧ q.received = after.received := by
  obtain ⟨q, item, rest, object, queue, rfl⟩ := object_get taken
  rw [List.getElem?_set] at there
  split at there
  · next same =>
      subst same
      rw [if_pos (Objects.lt_length object)] at there
      cases there
      refine ⟨q, object, rfl, ?_, ?_⟩ <;> simp [BusQueue.shown, BusQueue.received, queue]
  · exact ⟨after, there, rfl, rfl, rfl⟩

theorem length_get {n : Nat} (taken : s.get n = some t) : t.objects.length = s.objects.length := by
  obtain ⟨_, _, _, _, _, rfl⟩ := object_get taken
  exact List.length_set

theorem Sound.get (sound : s.Sound) {n : Nat} (taken : s.get n = some t) : t.Sound := by
  have objects := fun {m : Nat} {after : BusQueue δ} =>
    object_of_get taken m after
  have length := length_get taken
  obtain ⟨_, _, _, _, _, rfl⟩ := object_get taken
  refine ⟨sound.distinct, fun {num m} there => ?_, sound.ring⟩
  obtain ⟨q, object, session⟩ := sound.known there
  have known := (Objects.lt_length object).trans_eq length.symm
  have there := List.getElem?_eq_getElem known
  obtain ⟨q', object', session', -⟩ := objects there
  obtain rfl := Option.some.inj (object.symm.trans object')
  exact ⟨_, there, session'.symm.trans session⟩

theorem sound_step (sound : s.Sound) (taken : s.step setup a = some t) : t.Sound := by
  cases a with
  | publish num event data now =>
      cases taken
      exact sound.publish num event data now
  | subscribe num =>
      cases taken
      exact sound.subscribe num
  | unsubscribe num n =>
      cases taken
      exact sound.unsubscribe num n
  | get n => exact sound.get taken

theorem sound {guard : SessionBus δ → BusAct δ → Prop}
    (reached : (sessionBus setup δ).Reachable guard s) : s.Sound := by
  apply reached.invariant (motive := Sound)
  · exact ⟨fun _ => List.nodup_nil, fun there => absurd there List.not_mem_nil,
      fun _ => List.nil_suffix⟩
  · intro s a t _ sound _ taken
    exact sound_step sound taken

/-! ## What holds when publishers find room -/

/-- A stream is part of what was published, to its end while it is subscribed, and to the end
of the session if it was subscribed then. -/
structure Complete (s : SessionBus δ) : Prop where
  streaming : ∀ {num : Int} {n : Nat} {q : BusQueue δ}, n ∈ (s.channel num).subscribers →
    s.objects[n]? = some q → q.shown <:+ s.events num
  contiguous : ∀ {n : Nat} {q : BusQueue δ}, s.objects[n]? = some q →
    q.shown <:+: s.events q.session
  ended : ∀ e ∈ s.ends, e.item.event = .sessionEnd ∧ ∀ n ∈ e.subscribers,
    (∀ k, n ∉ (s.channel k).subscribers) ∧ ∃ q, s.objects[n]? = some q ∧
      q.session = e.session ∧ q.received.getLast? = some e.item

theorem Sound.apart (sound : s.Sound) {num k : Int} {n : Nat}
    (here : n ∈ (s.channel num).subscribers) (there : n ∈ (s.channel k).subscribers) : num = k := by
  obtain ⟨q, object, rfl⟩ := sound.known here
  obtain ⟨q', object', rfl⟩ := sound.known there
  rw [Option.some.inj (object.symm.trans object')]

/-- A queue with room shows and gets the event. -/
theorem shown_offer {q : BusQueue δ} (room : q.queue.length < BusQueue.maxsize)
    (item : BusItem δ) : (q.offer item).shown = q.shown ++ [item] ∧
      (q.offer item).received = q.received ++ [item] := by
  rw [BusQueue.offer, if_pos room]
  simp [BusQueue.shown, BusQueue.received]

theorem suffix_append_singleton {α : Type u} {l m : List α} (suffix : l <:+ m) (a : α) :
    l ++ [a] <:+ m ++ [a] := by
  obtain ⟨before, rfl⟩ := suffix
  exact ⟨before, (List.append_assoc ..).symm⟩

theorem complete_publish (sound : s.Sound) (complete : s.Complete) {num : Int} {event : BusEvent}
    {data : δ} {now : ℚ} (roomy : s.roomy (.publish num event data now)) :
    (s.publish setup num event data now).Complete := by
  have object : ∀ n, (s.publish setup num event data now).objects[n]? = _ :=
    object_publish sound num event data now
  generalize made : (⟨event, data, now⟩ : BusItem δ) = item at object
  have events : ∀ k, (s.publish setup num event data now).events k =
      s.events k ++ if k = num then [item] else [] := by
    rw [← made]
    exact fun k => events_publish num k event data now s
  have subscribed : ∀ {n q}, n ∈ (s.channel num).subscribers → s.objects[n]? = some q →
      (q.offer item).shown <:+ (s.publish setup num event data now).events num := by
    intro n q there before
    rw [events, if_pos rfl, (shown_offer (roomy n there q before) item).1]
    exact suffix_append_singleton (complete.streaming there before) item
  constructor
  · intro k n q there after
    obtain ⟨there, -⟩ := subscribers_publish there
    rw [object] at after
    split at after
    · next here =>
        obtain ⟨before, known, rfl⟩ := Option.map_eq_some_iff.mp after
        exact sound.apart here there ▸ subscribed here known
    · next elsewhere =>
        have other : k ≠ num := fun same => elsewhere (same ▸ there)
        rw [events, if_neg other, List.append_nil]
        exact complete.streaming there after
  · intro n q after
    rw [object] at after
    split at after
    · next here =>
        obtain ⟨before, known, rfl⟩ := Option.map_eq_some_iff.mp after
        obtain ⟨q, known', session⟩ := sound.known here
        obtain rfl := Option.some.inj (known.symm.trans known')
        rw [offer_session, session]
        exact (subscribed here known).isInfix
    · rw [events]
      exact (complete.contiguous after).trans (List.prefix_append _ _).isInfix
  · have gone : ∀ {n}, (∀ k, n ∉ (s.channel k).subscribers) →
        ∀ k, n ∉ ((s.publish setup num event data now).channel k).subscribers :=
      fun absent k there => absent k (subscribers_publish there).1
    have old : ∀ e ∈ s.ends, e.item.event = .sessionEnd ∧ ∀ n ∈ e.subscribers,
        (∀ k, n ∉ ((s.publish setup num event data now).channel k).subscribers) ∧
          ∃ q, (s.publish setup num event data now).objects[n]? = some q ∧
            q.session = e.session ∧ q.received.getLast? = some e.item := by
      intro e listed
      obtain ⟨ends, all⟩ := complete.ended e listed
      refine ⟨ends, fun n there => ?_⟩
      obtain ⟨absent, q, known, session, last⟩ := all n there
      refine ⟨gone absent, q, ?_, session, last⟩
      rw [object, if_neg (absent num)]
      exact known
    intro e listed
    by_cases ending : event = .sessionEnd
    · have listed : e ∈ s.ends ++ [⟨num, item, (s.channel num).subscribers⟩] := by
        simpa only [publish, if_pos ending, made] using listed
      rcases List.mem_append.mp listed with listed | new
      · exact old e listed
      · rw [List.mem_singleton.mp new]
        refine ⟨made ▸ ending, fun n there => ⟨fun k still => ?_, ?_⟩⟩
        · obtain ⟨still, other⟩ := subscribers_publish still
          exact other (sound.apart still there) ending
        · obtain ⟨q, known, session⟩ := sound.known there
          refine ⟨q.offer item, ?_, (offer_session item q).trans session, ?_⟩
          · rw [object, if_pos there, known]
            rfl
          · rw [(shown_offer (roomy n there q known) item).2]
            exact List.getLast?_concat
    · refine old e ?_
      simpa only [publish, if_neg ending] using listed

theorem complete_subscribe (sound : s.Sound) (complete : s.Complete) (num : Int) :
    (s.subscribe num).Complete := by
  have fresh : ∀ {q}, (s.subscribe num).objects[s.objects.length]? = some q →
      q = ⟨num, [], (s.channel num).buffer, []⟩ := by
    intro q there
    exact Option.some.inj (there.symm.trans List.getElem?_concat_length)
  have shown : (⟨num, [], (s.channel num).buffer, []⟩ : BusQueue δ).shown = (s.channel num).buffer :=
    List.append_nil _
  constructor
  · intro k n q there object
    rcases Objects.getElem?_append_singleton object with before | ⟨rfl, rfl⟩
    · have still : n ∈ (s.channel k).subscribers := by
        rw [channel_subscribe] at there
        split at there
        · next same =>
            subst same
            rcases List.mem_append.mp there with there | last
            · exact there
            · exact absurd (List.mem_singleton.mp last) (Objects.lt_length before).ne
        · exact there
      exact complete.streaming still before
    · obtain ⟨q', object', session⟩ := (sound.subscribe num).known there
      have same : num = k := by
        rw [fresh object'] at session
        exact session
      rw [shown, ← same]
      exact sound.ring num
  · intro n q object
    rcases Objects.getElem?_append_singleton object with before | ⟨rfl, rfl⟩
    · exact complete.contiguous before
    · rw [shown]
      exact (sound.ring num).isInfix
  · intro e listed
    obtain ⟨ends, all⟩ := complete.ended e listed
    refine ⟨ends, fun n there => ?_⟩
    obtain ⟨absent, q, known, rest⟩ := all n there
    refine ⟨fun k still => ?_, q, Objects.getElem?_append_of_some known, rest⟩
    rw [channel_subscribe] at still
    split at still
    · rcases List.mem_append.mp still with still | last
      · exact absent num still
      · exact absurd (List.mem_singleton.mp last) (Objects.lt_length known).ne
    · exact absent k still

theorem complete_unsubscribe (complete : s.Complete) (num : Int) (n : Nat) :
    (s.unsubscribe num n).Complete := by
  have fewer : ∀ {k m}, m ∈ ((s.unsubscribe num n).channel k).subscribers →
      m ∈ (s.channel k).subscribers := by
    intro k m there
    rw [channel_unsubscribe] at there
    split at there
    · next same => exact same ▸ (List.mem_filter.mp there).1
    · exact there
  refine ⟨fun there object => complete.streaming (fewer there) object, complete.contiguous, ?_⟩
  intro e listed
  obtain ⟨ends, all⟩ := complete.ended e listed
  exact ⟨ends, fun m there => ⟨fun k still => (all m there).1 k (fewer still), (all m there).2⟩⟩

theorem complete_get (complete : s.Complete) {n : Nat} (taken : s.get n = some t) :
    t.Complete := by
  have back := fun {m : Nat} {after : BusQueue δ} =>
    object_of_get taken m after
  have length := length_get taken
  obtain ⟨_, _, _, _, _, rfl⟩ := object_get taken
  constructor
  · intro num m after there object
    obtain ⟨q, before, -, shown, -⟩ := back object
    exact shown ▸ complete.streaming there before
  · intro m after object
    obtain ⟨q, before, session, shown, -⟩ := back object
    exact session ▸ shown ▸ complete.contiguous before
  · intro e listed
    obtain ⟨ends, all⟩ := complete.ended e listed
    refine ⟨ends, fun m there => ?_⟩
    obtain ⟨absent, q, known, session, last⟩ := all m there
    have object := List.getElem?_eq_getElem ((Objects.lt_length known).trans_eq length.symm)
    obtain ⟨q', before, session', -, received⟩ := back object
    obtain rfl := Option.some.inj (known.symm.trans before)
    exact ⟨absent, _, object, session'.symm.trans session, received ▸ last⟩

theorem complete_step (sound : s.Sound) (complete : s.Complete) (roomy : s.roomy a)
    (taken : s.step setup a = some t) : t.Complete := by
  cases a with
  | publish num event data now =>
      cases taken
      exact complete_publish sound complete roomy
  | subscribe num =>
      cases taken
      exact complete_subscribe sound complete num
  | unsubscribe num n =>
      cases taken
      exact complete_unsubscribe complete num n
  | get n => exact complete_get complete taken

/-- In every run in which publishers find room, each queue that was subscribed when a session
ended has got the end as its last event, and what a stream shows is a contiguous part of what
was published for its session. -/
theorem streams_complete (reached : (sessionBus setup δ).Reachable (fun s a => s.roomy a) s) :
    (∀ e ∈ s.ends, e.item.event = .sessionEnd ∧ ∀ n ∈ e.subscribers, ∃ q,
      s.objects[n]? = some q ∧ q.session = e.session ∧ q.received.getLast? = some e.item) ∧
        ∀ (n : Nat) (q : BusQueue δ), s.objects[n]? = some q → q.shown <:+: s.events q.session := by
  have complete : s.Complete := by
    apply reached.invariant (motive := Complete)
    · exact ⟨fun there => absurd there List.not_mem_nil,
        fun there => absurd (List.getElem?_nil.symm.trans there) nofun, nofun⟩
    · intro s a t prior complete roomy taken
      exact complete_step (sound prior) complete roomy taken
  exact ⟨fun e listed => ⟨(complete.ended e listed).1, fun n there =>
    ((complete.ended e listed).2 n there).2⟩, fun n q there => complete.contiguous there⟩

def plainBus : BusSetup := ⟨50, 4⟩

/-- A stream that is opened in the middle of a session and reads a little of it. -/
def follows : List (BusAct Unit) :=
  [.publish 7 .command () 0, .publish 7 .output () 0, .subscribe 7, .publish 7 .output () 1,
    .get 0, .publish 7 .sessionEnd () 2]

theorem streams_complete_follows : ∃ (s : SessionBus Unit) (q : BusQueue Unit),
    s.objects[0]? = some q ∧ q.shown <:+: s.events q.session ∧
      ∃ e ∈ s.ends, e.item.event = .sessionEnd ∧ q.received.getLast? = some e.item := by
  obtain ⟨s, path, shown⟩ := System.reaches (sessionBus plainBus Unit) (fun s a => s.roomy a)
    (fun s => (s.ends.any fun e => decide (0 ∈ e.subscribers)) = true)
    follows (fun _ _ _ => trivial) (by decide +kernel)
  obtain ⟨e, listed, there⟩ := List.any_eq_true.mp shown
  obtain ⟨ended, contiguous⟩ := streams_complete (path.mono fun _ _ both => both.1)
  obtain ⟨ends, all⟩ := ended e listed
  obtain ⟨q, known, -, last⟩ := all 0 (of_decide_eq_true there)
  exact ⟨s, q, known, contiguous 0 q known, e, listed, ends, last⟩

/-- As many events as a queue holds, and the end. -/
def falls : List (BusAct Unit) :=
  BusAct.subscribe 7 :: List.replicate 256 (.publish 7 .output () 0) ++
    [.publish 7 .sessionEnd () 1]

/-- A stream that has fallen behind is never told that its session has ended. -/
theorem end_unseen : ∃ (s : SessionBus Unit) (e : BusEnd Unit) (q : BusQueue Unit),
    (sessionBus plainBus Unit).Reachable (fun _ _ => True) s ∧ e ∈ s.ends ∧ 0 ∈ e.subscribers ∧
      s.objects[0]? = some q ∧ ∀ item ∈ q.received, item.event ≠ .sessionEnd := by
  obtain ⟨s, path, unseen⟩ := System.reaches (sessionBus plainBus Unit) (fun _ _ => True)
    (fun s => (s.ends.any fun e => decide (0 ∈ e.subscribers)) = true ∧
      (s.objects[0]?.any fun (q : BusQueue Unit) => q.received.all fun item =>
        decide (item.event ≠ .sessionEnd)) = true)
    falls (fun _ _ _ => trivial) (by decide +kernel)
  obtain ⟨e, listed, there⟩ := List.any_eq_true.mp unseen.1
  obtain ⟨q, known, never⟩ := (Option.any_eq_true ..).mp unseen.2
  exact ⟨s, e, q, path.mono fun _ _ _ => trivial, listed, of_decide_eq_true there, known,
    fun item got => of_decide_eq_true (List.all_eq_true.mp never item got)⟩

end SessionBus

end Zorkbot.Admin
