/-
# The message windows

`MessageWindows` keeps the text of the last messages that were heard or sent, in memory
only. Capacity is partitioned: a channel the bot serves has a ring of its own from the start,
and the contacts share a pool from which the one that was silent longest goes first.
-/

import Zorkbot.Bot.Gate
import Zorkbot.Data.Recency
import Zorkbot.Data.Table
import Mathlib.Algebra.Ring.Int.Defs
import Mathlib.Algebra.Ring.Nat
import Mathlib.Data.Rat.Defs

namespace Zorkbot.Admin

open Zorkbot.Bot (Str Transport truthy)

/-! ## Records -/

inductive MessageDirection
  | rx
  | tx
  deriving DecidableEq

structure WindowMessage where
  /-- The field `at`. -/
  atTime : Int
  direction : MessageDirection
  text : Str
  senderName : Option Str
  pubkeyPrefix : Option Str
  senderVerified : Bool
  deriving DecidableEq

/-- The fields of `MessageWindows`. -/
structure MessageWindows where
  window : Nat
  maxContacts : Nat
  botName : Str
  channels : Table Int (List WindowMessage)
  contacts : OrderedDict Str (List WindowMessage)

/-- A call of `record_rx` or `record_tx`, and when it is made. -/
inductive WindowCall
  | recordRx (now : ℚ) (transport : Transport) (channelIdx : Option Int)
      (pubkeyPrefix senderName : Option Str) (text : Str)
  | recordTx (now : ℚ) (transport : Transport) (channelIdx : Option Int)
      (pubkeyPrefix : Option Str) (text : Str)
  deriving DecidableEq

namespace WindowCall

def transport : WindowCall → Transport
  | recordRx _ transport .. => transport
  | recordTx _ transport .. => transport

def channelIdx : WindowCall → Option Int
  | recordRx _ _ channelIdx .. => channelIdx
  | recordTx _ _ channelIdx .. => channelIdx

def pubkeyPrefix : WindowCall → Option Str
  | recordRx _ _ _ pubkeyPrefix .. => pubkeyPrefix
  | recordTx _ _ _ pubkeyPrefix _ => pubkeyPrefix

/-- The message that the call records. -/
def message (botName : Str) : WindowCall → WindowMessage
  | recordRx now transport _ pubkeyPrefix senderName text =>
      { atTime := now.floor
        direction := .rx
        text := text
        senderName := senderName
        pubkeyPrefix := pubkeyPrefix
        senderVerified := transport = .dm }
  | recordTx now _ _ _ text =>
      { atTime := now.floor
        direction := .tx
        text := text
        senderName := some botName
        pubkeyPrefix := none
        senderVerified := true }

end WindowCall

namespace MessageWindows

/-! ## Recording -/

/-- The `maxlen` of a `deque` has to be below this, or an OverflowError is raised. -/
def maxlenLimit : Nat := 2 ^ 63

/-- `deque(maxlen=window)`. -/
def newRing (window : Nat) : Option (List WindowMessage) :=
  if window < maxlenLimit then some [] else none

/-- The rings of the channels, empty. -/
def reserve (window : Nat) (rings : Table Int (List WindowMessage)) :
    List Int → Option (Table Int (List WindowMessage))
  | [] => some rings
  | idx :: channels =>
      (newRing window).bind fun ring => reserve window (rings.set idx ring) channels

/-- `__init__`; `none` where it raises. -/
def init (window maxContacts : Int) (channels : List Int) (botName : Str) :
    Option MessageWindows :=
  (reserve window.toNat .empty channels).map fun rings =>
    { window := window.toNat
      maxContacts := maxContacts.toNat
      botName := botName
      channels := rings
      contacts := .empty }

/-- The `while` of `_contact_window`. -/
def evict (maxContacts : Nat) (contacts : OrderedDict Str (List WindowMessage)) :
    OrderedDict Str (List WindowMessage) :=
  if maxContacts < contacts.size then evict maxContacts contacts.popFirst else contacts
termination_by contacts.size
decreasing_by
  change contacts.items.tail.length < contacts.items.length
  rw [List.length_tail]
  exact Nat.sub_lt (Nat.zero_lt_of_lt (by assumption)) Nat.one_pos

/-- `_contact_window`: the ring, the last one in the pool now. It raises when no ring can be made,
and when the pool has room for none. -/
def contactWindow (self : MessageWindows) (pubkeyPrefix : Str) :
    Option (MessageWindows × List WindowMessage) :=
  let found :=
    match self.contacts.get pubkeyPrefix with
    | some ring => some (self.contacts, ring)
    | none => (newRing self.window).map fun ring =>
        (evict self.maxContacts (self.contacts.set pubkeyPrefix ring), ring)
  found.bind fun (contacts, ring) =>
    (contacts.moveToEnd pubkeyPrefix).map fun contacts =>
      ({ self with contacts := contacts }, ring)

/-- `_append`. A ring is shared with the pool, so what is appended to it is in the pool. -/
def append (self : MessageWindows) (transport : Transport) (channelIdx : Option Int)
    (pubkeyPrefix : Option Str) (message : WindowMessage) : Option MessageWindows :=
  if self.window = 0 then some self
  else
    match transport with
    | .dm =>
      match truthy pubkeyPrefix with
      | none => some self
      | some pubkeyPrefix =>
        (self.contactWindow pubkeyPrefix).map fun (self, ring) =>
          { self with
            contacts := self.contacts.set pubkeyPrefix (Deque.append self.window ring message) }
    | .channel =>
      match channelIdx with
      | none => some self
      | some idx =>
        match self.channels.get idx with
        | none => some self
        | some ring =>
          some { self with
            channels := self.channels.set idx (Deque.append self.window ring message) }

/-- `record_rx` and `record_tx`; `none` where the call raises. -/
def record (self : MessageWindows) (call : WindowCall) : Option MessageWindows :=
  self.append call.transport call.channelIdx call.pubkeyPrefix (call.message self.botName)

/-- One call after another. -/
def recordAll (self : MessageWindows) : List WindowCall → Option MessageWindows
  | [] => some self
  | call :: calls => (self.record call).bind fun self => self.recordAll calls

/-! ## Reading -/

def tracksChannel (self : MessageWindows) (channelIdx : Int) : Bool :=
  (self.channels.get channelIdx).isSome

def contactMessages (self : MessageWindows) (pubkeyPrefix : Str) : List WindowMessage :=
  (self.contacts.get pubkeyPrefix).getD []

def channelMessages (self : MessageWindows) (channelIdx : Int) : List WindowMessage :=
  (self.channels.get channelIdx).getD []

end MessageWindows

/-! ## The reference -/

/-- The contact a call is about and what it records there. -/
def WindowCall.contact (botName : Str) (call : WindowCall) : Option (Str × WindowMessage) :=
  if call.transport = .dm then
    (truthy call.pubkeyPrefix).map fun pubkeyPrefix => (pubkeyPrefix, call.message botName)
  else none

/-- The channel a call is about and what it records there. -/
def WindowCall.channel (botName : Str) (call : WindowCall) : Option (Int × WindowMessage) :=
  if call.transport = .channel then
    call.channelIdx.map fun channelIdx => (channelIdx, call.message botName)
  else none

namespace MessageWindows

open Recency (said touch ringOf mostRecent pool)
open OrderedDict (without)

variable {self : MessageWindows} {m : Nat}

theorem items_evict (maxContacts : Nat) (contacts : OrderedDict Str (List WindowMessage)) :
    (evict maxContacts contacts).items = Deque.keep maxContacts contacts.items := by
  fun_induction evict with
  | case1 contacts full ih => exact ih.trans (Deque.keep_tail full)
  | case2 contacts room => exact (Deque.keep_of_length_le (Nat.le_of_not_lt room)).symm

/-- The ring of a contact comes last, before it the contacts that stay. -/
theorem contactWindow_spec (narrow : self.window < maxlenLimit) (room : self.maxContacts = m + 1)
    (bounded : self.contacts.size ≤ m + 1) (k : Str) :
    ∃ contacts : OrderedDict Str (List WindowMessage),
      self.contactWindow k =
        some ({ self with contacts := contacts }, ringOf k self.contacts.items) ∧
      contacts.items =
        Deque.keep m (without self.contacts.items k) ++ [(k, ringOf k self.contacts.items)] := by
  cases found : self.contacts.get k with
  | some ring =>
      have ringIs : ringOf k self.contacts.items = ring := congrArg (·.getD []) found
      have few := OrderedDict.length_without_lt (OrderedDict.get_eq_some_iff.mp found)
      obtain ⟨contacts, moved, items⟩ := OrderedDict.moveToEnd_of_get found
      refine ⟨contacts, ?_, ?_⟩
      · simp only [contactWindow, found, ringIs, Option.bind_some, moved, Option.map_some]
      · rw [items, ringIs, Deque.keep_of_length_le (by omega)]
  | none =>
      have ringIs : ringOf k self.contacts.items = [] := congrArg (·.getD []) found
      have absent : k ∉ self.contacts.keys := OrderedDict.get_eq_none_iff.mp found
      have items : (evict self.maxContacts (self.contacts.set k [])).items =
          Deque.keep m self.contacts.items ++ [(k, [])] := by
        rw [items_evict, OrderedDict.items_set_new absent, room, Deque.keep_append_singleton]
      have bound : (evict self.maxContacts (self.contacts.set k [])).get k = some [] := by
        rw [OrderedDict.get_eq_some_iff, items]
        exact List.mem_append_right _ (List.mem_singleton_self _)
      have others : k ∉ (Deque.keep m self.contacts.items).map Prod.fst := fun there =>
        absent (((Deque.keep_suffix _ _).map _).subset there)
      obtain ⟨contacts, moved, placed⟩ := OrderedDict.moveToEnd_of_get bound
      refine ⟨contacts, ?_, ?_⟩
      · simp only [contactWindow, found, ringIs, newRing, narrow, if_true, Option.map_some,
          Option.bind_some, moved]
      · rw [placed, items, ringIs, OrderedDict.without_of_not_mem absent]
        rw [without, List.filter_append, ← without, OrderedDict.without_of_not_mem others]
        simp

/-- What a call does to the pool and to the rings of the channels. -/
theorem record_spec (opened : self.window ≠ 0) (narrow : self.window < maxlenLimit)
    (room : self.maxContacts = m + 1) (bounded : self.contacts.size ≤ m + 1) (call : WindowCall) :
    ∃ channels contacts,
      self.record call = some { self with channels := channels, contacts := contacts } ∧
      (∀ idx, channels.get idx = (self.channels.get idx).map fun ring =>
        (said (WindowCall.channel self.botName) idx [call]).foldl (Deque.append self.window) ring) ∧
      contacts.items =
        (call.contact self.botName).toList.foldl (touch m self.window) self.contacts.items := by
  cases way : call.transport with
  | dm =>
      have silent : ∀ idx, said (WindowCall.channel self.botName) idx [call] = [] := fun idx =>
        Recency.said_quiet (by rw [WindowCall.channel, way, if_neg nofun]) idx
      have quiet : ∀ idx, self.channels.get idx = (self.channels.get idx).map fun ring =>
          (said (WindowCall.channel self.botName) idx [call]).foldl
            (Deque.append self.window) ring := fun idx => by
        rw [silent]
        exact Option.map_id'.symm
      cases sender : truthy call.pubkeyPrefix with
      | none =>
          refine ⟨self.channels, self.contacts, ?_, quiet, ?_⟩
          · simp only [record, append, opened, if_false, way, sender]
          · rw [WindowCall.contact, if_pos way, sender]
            rfl
      | some k =>
          obtain ⟨contacts, window, items⟩ := contactWindow_spec narrow room bounded k
          refine ⟨self.channels, contacts.set k (Deque.append self.window
            (ringOf k self.contacts.items) (call.message self.botName)), ?_, quiet, ?_⟩
          · simp only [record, append, opened, if_false, way, sender, window, Option.map_some]
          · rw [WindowCall.contact, if_pos way, sender]
            exact OrderedDict.items_set_last items _
  | channel =>
      have quiet : call.contact self.botName = none := by
        rw [WindowCall.contact, way, if_neg nofun]
      cases which : call.channelIdx with
      | none =>
          refine ⟨self.channels, self.contacts, ?_, fun idx => ?_, ?_⟩
          · simp only [record, append, opened, if_false, way, which]
          · rw [Recency.said_quiet (by rw [WindowCall.channel, if_pos way, which]; rfl)]
            exact Option.map_id'.symm
          · rw [quiet]
            rfl
      | some idx =>
          have heard : call.channel self.botName = some (idx, call.message self.botName) := by
            rw [WindowCall.channel, if_pos way, which]
            rfl
          cases ring : self.channels.get idx with
          | none =>
              refine ⟨self.channels, self.contacts, ?_, fun other => ?_, ?_⟩
              · simp only [record, append, opened, if_false, way, which, ring]
              · by_cases same : other = idx
                · rw [same, ring]
                  rfl
                · rw [Recency.said_other heard same]
                  exact Option.map_id'.symm
              · rw [quiet]
                rfl
          | some ring' =>
              refine ⟨self.channels.set idx (Deque.append self.window ring'
                (call.message self.botName)), self.contacts, ?_, fun other => ?_, ?_⟩
              · simp only [record, append, opened, if_false, way, which, ring]
              · by_cases same : other = idx
                · rw [same, ring, Table.get_set_self, Recency.said_touch heard]
                  rfl
                · rw [Table.get_set_of_ne same, Recency.said_other heard same]
                  exact Option.map_id'.symm
              · rw [quiet]
                rfl

/-! ## Every run -/

/-- What the fields hold after these calls. -/
structure Holds (m window : Nat) (channels : List Int) (botName : Str) (calls : List WindowCall)
    (held : MessageWindows) : Prop where
  width : held.window = window
  room : held.maxContacts = m + 1
  name : held.botName = botName
  pooled : held.contacts.items = pool m window (calls.filterMap (WindowCall.contact botName))
  rings : ∀ idx, held.channels.get idx = if idx ∈ channels then
    some (Deque.keep window (said (WindowCall.channel botName) idx calls)) else none

theorem reserve_spec {window : Nat} (narrow : window < maxlenLimit) (channels : List Int)
    (rings : Table Int (List WindowMessage)) :
    ∃ reserved, reserve window rings channels = some reserved ∧
      ∀ idx, reserved.get idx = if idx ∈ channels then some [] else rings.get idx := by
  induction channels generalizing rings with
  | nil => exact ⟨rings, rfl, fun _ => rfl⟩
  | cons first channels ih =>
      obtain ⟨reserved, made, is⟩ := ih (rings.set first [])
      refine ⟨reserved, ?_, fun idx => ?_⟩
      · rw [reserve, newRing, if_pos narrow, Option.bind_some, made]
      · rw [is, Table.get_set]
        by_cases same : idx = first <;> simp [same]

/-- Windows that are not too wide are made. -/
theorem holds_init {window : Nat} (narrow : window < maxlenLimit) (m : Nat) (channels : List Int)
    (botName : Str) :
    ∃ start, init window (m + 1 : Nat) channels botName = some start ∧
      Holds m window channels botName [] start := by
  obtain ⟨rings, made, is⟩ := reserve_spec narrow channels .empty
  refine ⟨_, by rw [init, Int.toNat_natCast, made, Option.map_some], ?_⟩
  constructor
  · rfl
  · exact Int.toNat_natCast _
  · rfl
  · rfl
  · intro idx
    rw [said, List.filterMap_nil, List.filter_nil, List.map_nil, Deque.keep_nil]
    exact is idx

variable {window : Nat} {channels : List Int} {botName : Str} {calls : List WindowCall}

/-- One more call. -/
theorem Holds.record (holds : Holds m window channels botName calls self) (opened : window ≠ 0)
    (narrow : window < maxlenLimit) (call : WindowCall) :
    ∃ next, self.record call = some next ∧
      Holds m window channels botName (calls ++ [call]) next := by
  obtain ⟨rfl, room, rfl, pooled, rings⟩ := holds
  have bounded : self.contacts.size ≤ m + 1 := by
    rw [OrderedDict.size, pooled]
    exact Recency.length_pool_le ..
  obtain ⟨rings', contacts', recorded, ringsIs, poolIs⟩ := record_spec opened narrow room bounded call
  refine ⟨_, recorded, rfl, room, rfl, ?_, fun idx => ?_⟩
  · rw [poolIs, pooled, pool, pool, List.filterMap_append, List.foldl_append]
    rfl
  · rw [ringsIs, rings, Recency.said_append]
    split
    · rw [Option.map_some, Deque.foldl_append_keep]
    · rfl

theorem recordAll_append_singleton (self : MessageWindows) (calls : List WindowCall)
    (call : WindowCall) :
    self.recordAll (calls ++ [call]) = (self.recordAll calls).bind fun next => next.record call := by
  induction calls generalizing self with
  | nil =>
      rw [List.nil_append, recordAll, recordAll, Option.bind_some]
      exact Option.bind_fun_some _
  | cons first calls ih =>
      rw [List.cons_append, recordAll, recordAll, Option.bind_assoc]
      congr 1
      ext1 next
      exact ih next

/-- No call raises, and the fields are what the calls make them. -/
theorem Holds.recordAll {start : MessageWindows} (holds : Holds m window channels botName [] start)
    (opened : window ≠ 0) (narrow : window < maxlenLimit) (calls : List WindowCall) :
    ∃ self, start.recordAll calls = some self ∧ Holds m window channels botName calls self := by
  induction calls using List.reverseRecOn with
  | nil => exact ⟨_, rfl, holds⟩
  | append_singleton calls call ih =>
      obtain ⟨self, run, held⟩ := ih
      obtain ⟨next, recorded, after⟩ := held.record opened narrow call
      exact ⟨next, by rw [recordAll_append_singleton, run, Option.bind_some, recorded], after⟩

/-- The resident contacts are the ones active last, each with the last of its messages since it
came back, and a channel that is served has the last of its own messages. What the pool holds
depends on the direct messages alone, and what a channel's ring holds on that channel's alone. -/
theorem windows_match (window maxContacts : Int) (channels : List Int) (botName : Str)
    (opened : 1 ≤ window) (narrow : window < maxlenLimit) (room : 1 ≤ maxContacts) :
    ∃ start, init window maxContacts channels botName = some start ∧
      (∀ calls, ∃ self, start.recordAll calls = some self ∧
        self.contacts.keys = mostRecent (WindowCall.contact botName) maxContacts.toNat calls ∧
        (∀ k ∈ self.contacts.keys, ∃ pre post, calls = pre ++ post ∧
          Recency.Since (WindowCall.contact botName) maxContacts.toNat k pre post ∧
          self.contactMessages k =
            Deque.keep window.toNat (said (WindowCall.contact botName) k post)) ∧
        ∀ idx, self.tracksChannel idx = decide (idx ∈ channels) ∧
          (idx ∈ channels → self.channelMessages idx =
            Deque.keep window.toNat (said (WindowCall.channel botName) idx calls))) ∧
      ∀ calls calls' self self',
        start.recordAll calls = some self → start.recordAll calls' = some self' →
        (calls.filterMap (WindowCall.contact botName) =
          calls'.filterMap (WindowCall.contact botName) → self.contacts = self'.contacts) ∧
        ∀ idx, said (WindowCall.channel botName) idx calls =
          said (WindowCall.channel botName) idx calls' →
          self.channels.get idx = self'.channels.get idx := by
  obtain ⟨window, rfl⟩ := Int.eq_ofNat_of_zero_le (by omega : 0 ≤ window)
  obtain ⟨m, rfl⟩ : ∃ m : Nat, maxContacts = (m + 1 : Nat) := ⟨maxContacts.toNat - 1, by omega⟩
  have opened : window ≠ 0 := by omega
  have narrow : window < maxlenLimit := by omega
  obtain ⟨start, made, first⟩ := holds_init narrow m channels botName
  simp only [Int.toNat_natCast]
  refine ⟨start, made, fun calls => ?_, fun calls calls' self self' run run' => ?_⟩
  · obtain ⟨self, run, holds⟩ := first.recordAll opened narrow calls
    have windows := Recency.windows_pool (WindowCall.contact botName) m window calls
    rw [← holds.pooled] at windows
    refine ⟨self, run, windows.keys, fun k resident => ?_, fun idx => ⟨?_, fun served => ?_⟩⟩
    · obtain ⟨⟨k, ring⟩, listed, rfl⟩ := List.mem_map.mp resident
      obtain ⟨pre, post, split, since, is⟩ := windows.ring listed
      refine ⟨pre, post, split, since, ?_⟩
      rw [contactMessages, OrderedDict.get_eq_some_iff.mpr listed]
      exact is
    · rw [tracksChannel, holds.rings]
      split <;> simp [*]
    · rw [channelMessages, holds.rings, if_pos served]
      rfl
  · obtain ⟨_, ran, holds⟩ := first.recordAll opened narrow calls
    obtain rfl := Option.some.inj (ran.symm.trans run)
    obtain ⟨_, ran', holds'⟩ := first.recordAll opened narrow calls'
    obtain rfl := Option.some.inj (ran'.symm.trans run')
    refine ⟨fun same => OrderedDict.ext ?_, fun idx same => ?_⟩
    · rw [holds.pooled, holds'.pooled, same]
    · rw [holds.rings, holds'.rings, same]

/-- Two contacts in a pool with room for one, and a channel that is heard between them. -/
theorem windows_match_evicted :
    ∃ start, init 1 1 [1] "zorkbot".toList = some start ∧
      ∃ self, start.recordAll
          [.recordRx 0 .dm none (some "aa".toList) none "open mailbox".toList,
            .recordRx 1 .channel (some 1) none none "hello".toList,
            .recordTx 2 .dm none (some "bb".toList) "taken".toList] = some self ∧
        self.contacts.keys = ["bb".toList] ∧
        self.channelMessages 1 = [⟨1, .rx, "hello".toList, none, none, false⟩] := by
  obtain ⟨start, made, matched, -⟩ :=
    windows_match 1 1 [1] "zorkbot".toList (by decide) (by decide) (by decide)
  obtain ⟨self, run, keys, -, channel⟩ := matched
    [.recordRx 0 .dm none (some "aa".toList) none "open mailbox".toList,
      .recordRx 1 .channel (some 1) none none "hello".toList,
      .recordTx 2 .dm none (some "bb".toList) "taken".toList]
  exact ⟨start, made, self, run, keys.trans (by decide),
    ((channel 1).2 (by decide)).trans (by decide)⟩

/-- Windows wider than a `deque` can be: the first contact is never resident. -/
theorem windows_too_wide : ∃ start, init (2 ^ 63) 1 [] "zorkbot".toList = some start ∧
    start.recordAll [.recordRx 0 .dm none (some "aa".toList) none "look".toList] = none ∧
    mostRecent (WindowCall.contact "zorkbot".toList) 1
      [.recordRx 0 .dm none (some "aa".toList) none "look".toList] = ["aa".toList] :=
  ⟨_, rfl, by decide, by decide⟩

/-! ## Raising -/

theorem record_of_closed (closed : self.window = 0) (call : WindowCall) :
    self.record call = some self :=
  if_pos closed

/-- A call that is not about a contact does not raise and leaves the pool alone. -/
theorem record_of_quiet {call : WindowCall} (quiet : call.contact self.botName = none) :
    ∃ channels, self.record call = some { self with channels := channels } := by
  by_cases closed : self.window = 0
  · exact ⟨self.channels, record_of_closed closed call⟩
  · cases way : call.transport with
    | dm =>
        rw [WindowCall.contact, if_pos way, Option.map_eq_none_iff] at quiet
        exact ⟨self.channels, by simp only [record, append, closed, if_false, way, quiet]⟩
    | channel =>
        cases which : call.channelIdx with
        | none =>
            exact ⟨self.channels, by simp only [record, append, closed, if_false, way, which]⟩
        | some idx =>
            simp only [record, append, closed, if_false, way, which]
            split
            · exact ⟨self.channels, rfl⟩
            · exact ⟨_, rfl⟩

/-- There can be no ring for a contact: too wide a one, or the contact that comes is the one that
goes. -/
def Cramped (self : MessageWindows) : Prop :=
  maxlenLimit ≤ self.window ∨ self.maxContacts = 0

theorem contactWindow_of_cramped (cramped : self.Cramped) (nobody : self.contacts.items = [])
    (k : Str) : self.contactWindow k = none := by
  have absent : self.contacts.get k = none := by
    rw [OrderedDict.get_eq_none_iff, OrderedDict.keys, nobody]
    exact List.not_mem_nil
  rw [contactWindow, absent]
  dsimp only
  by_cases narrow : self.window < maxlenLimit
  · have room := cramped.resolve_left (Nat.not_le.mpr narrow)
    have gone : (evict 0 (self.contacts.set k [])).get k = none := by
      rw [OrderedDict.get_eq_none_iff, OrderedDict.keys, items_evict, Deque.keep, Nat.sub_zero,
        List.drop_length]
      exact List.not_mem_nil
    rw [newRing, if_pos narrow, Option.map_some, Option.bind_some, room, OrderedDict.moveToEnd,
      gone]
    rfl
  · rw [newRing, if_neg narrow]
    rfl

/-- Nor can the call about it be recorded. -/
theorem record_of_cramped (opened : self.window ≠ 0) (cramped : self.Cramped)
    (nobody : self.contacts.items = []) {call : WindowCall}
    (heard : call.contact self.botName ≠ none) : self.record call = none := by
  rw [WindowCall.contact] at heard
  split at heard
  · next way =>
      cases sender : truthy call.pubkeyPrefix with
      | none => exact absurd (by rw [sender]; rfl) heard
      | some k =>
          simp only [record, append, opened, if_false, way, sender,
            contactWindow_of_cramped cramped nobody, Option.map_none]
  · exact absurd rfl heard

theorem recordAll_of_cramped (opened : self.window ≠ 0) (cramped : self.Cramped)
    (nobody : self.contacts.items = []) (calls : List WindowCall) :
    (self.recordAll calls).isSome ↔ ∀ call ∈ calls, call.contact self.botName = none := by
  induction calls generalizing self with
  | nil => exact iff_of_true rfl fun _ there => absurd there List.not_mem_nil
  | cons call calls ih =>
      rw [recordAll, List.forall_mem_cons]
      by_cases quiet : call.contact self.botName = none
      · obtain ⟨channels, recorded⟩ := record_of_quiet quiet
        have rest : (({ self with channels := channels } : MessageWindows).recordAll calls).isSome ↔
            ∀ call ∈ calls, call.contact self.botName = none := ih opened cramped nobody
        rw [recorded, Option.bind_some, rest]
        exact (and_iff_right quiet).symm
      · rw [record_of_cramped opened cramped nobody quiet]
        exact iff_of_false nofun fun all => quiet all.1

theorem recordAll_of_closed (closed : self.window = 0) (calls : List WindowCall) :
    self.recordAll calls = some self := by
  induction calls with
  | nil => rfl
  | cons call calls ih => rw [recordAll, record_of_closed closed, Option.bind_some, ih]

/-- What the fields of new windows are. -/
theorem init_fields {window maxContacts : Int} {start : MessageWindows}
    (made : init window maxContacts channels botName = some start) :
    start.window = window.toNat ∧ start.maxContacts = maxContacts.toNat ∧
      start.botName = botName ∧ start.contacts.items = [] := by
  obtain ⟨rings, -, rfl⟩ := Option.map_eq_some_iff.mp made
  exact ⟨rfl, rfl, rfl, rfl⟩

/-- No call raises, unless text is kept, there can be no ring for a contact, and a contact is heard
of. -/
theorem recording_returns_iff {window maxContacts : Int} {channels : List Int} {botName : Str}
    {start : MessageWindows} (made : init window maxContacts channels botName = some start)
    (calls : List WindowCall) :
    (start.recordAll calls).isSome ↔
      window ≤ 0 ∨ (window < maxlenLimit ∧ 1 ≤ maxContacts) ∨
        ∀ call ∈ calls, call.contact botName = none := by
  obtain ⟨width, size, name, nobody⟩ := init_fields made
  by_cases closed : window ≤ 0
  · rw [recordAll_of_closed (width.trans (Int.toNat_of_nonpos closed))]
    exact iff_of_true rfl (.inl closed)
  · by_cases room : window < maxlenLimit ∧ 1 ≤ maxContacts
    · obtain ⟨window, rfl⟩ := Int.eq_ofNat_of_zero_le (by omega : 0 ≤ window)
      obtain ⟨m, rfl⟩ : ∃ m : Nat, maxContacts = (m + 1 : Nat) := ⟨maxContacts.toNat - 1, by omega⟩
      have opened : window ≠ 0 := by omega
      have narrow : window < maxlenLimit := by omega
      obtain ⟨_, same, holds⟩ := holds_init narrow m channels botName
      obtain rfl := Option.some.inj (same.symm.trans made)
      obtain ⟨self, run, -⟩ := holds.recordAll opened narrow calls
      rw [run]
      exact iff_of_true rfl (.inr (.inl room))
    · have opened : start.window ≠ 0 := by omega
      have cramped : start.Cramped := by
        rw [Cramped, width, size]
        omega
      rw [recordAll_of_cramped opened cramped nobody, name]
      simp only [closed, room, false_or]

theorem recording_returns_iff_twenty : ∃ start, init 20 50 [1] "zorkbot".toList = some start ∧
    (start.recordAll [.recordRx 0 .dm none (some "aa".toList) none "look".toList]).isSome :=
  have made : init 20 50 [1] "zorkbot".toList = some
      ⟨20, 50, "zorkbot".toList, Table.empty.set 1 [], .empty⟩ := rfl
  ⟨_, made, (recording_returns_iff made _).mpr (.inr (.inl (by decide)))⟩

/-- The first direct message, where text is kept and no contact may be. -/
theorem recording_raises : ∃ start, init 20 0 [1] "zorkbot".toList = some start ∧
    start.recordAll [.recordRx 0 .dm none (some "aa".toList) none "look".toList] = none :=
  ⟨_, rfl, by
    rw [recordAll, record_of_cramped (by decide) (.inr rfl) rfl (by decide), Option.bind_none]⟩

end MessageWindows

end Zorkbot.Admin
