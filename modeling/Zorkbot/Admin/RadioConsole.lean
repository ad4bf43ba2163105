/-
# The console's requests to the radio

The routes that write a channel slot look at the cached list before they write, and let
go of the lock in between. `PUT` without `replace` overwrites a channel when the list
leaves out a slot that holds one, or when another request fills the slot after the look.
In a run where neither happens it never does.
-/

import Zorkbot.Admin.RadioWrites
import Zorkbot.Transition.System

namespace Zorkbot.Admin

open Zorkbot.Bot (Str)
open Transition

/-- A request to the routes of the radio. A `PUT` is one whose body was accepted. -/
inductive RadioRequest
  | put (idx : Int) (name : Str) (secret : Option Key) (replace : Bool)
  | delete (idx : Int)
  /-- A route that reads. -/
  | get

/-- The response to a request; the descriptions of errors are left out. -/
inductive RadioResponse
  | failed (status : Nat) (error : Str)
  | written (channel : Option Channel)
  | cleared
  | read

/-- Where a request is: it waits for the lock in `max_channels`, in `channels` or in
`_write_channel`, with what it found in the slot. -/
inductive RadioPoint
  | bounding
  | listing
  | writing (existing : Option Channel)
  | ended (response : RadioResponse)

structure RadioConsole where
  cache : RadioState
  slots : Radio
  /-- The radio has told who it is. -/
  connected : Bool
  calls : List (RadioRequest × RadioPoint)

inductive ConsoleAct
  | call (request : RadioRequest)
  | connect (connected : Bool)
  /-- A request gets the lock and keeps it until it has done its commands. -/
  | turn (n : Nat) (clock : Readings) (write : WriteAnswer) (random : Key) (faults : Faults)

/-- The slot a request writes: its index, the name and the key. -/
def RadioRequest.target (random : Key) : RadioRequest → Option (Int × Str × Option Key)
  | .put idx name secret _ => some (idx, name, secret)
  | .delete idx => some (idx, [], some random)
  | .get => none

/-- The `PUT` found the slot free and is about to write it. -/
def fills (idx : Int) : RadioRequest × RadioPoint → Bool
  | (.put idx' _ _ false, .writing _) => decide (idx' = idx)
  | _ => false

/-- `_WRITE_STATUS`. -/
def writeStatus : WriteErrorCode → Nat
  | .radioUnavailable => 503
  | .writeTooFrequent => 429
  | .radioWriteFailed => 502

def errorCode : WriteErrorCode → Str
  | .radioUnavailable => "radio_unavailable".toList
  | .writeTooFrequent => "write_too_frequent".toList
  | .radioWriteFailed => "radio_write_failed".toList

def failedWrite (e : RadioWriteError) : RadioResponse :=
  .failed (writeStatus e.code) (errorCode e.code)

namespace RadioConsole

variable {setup : RadioSetup} {s t : RadioConsole}

def init (slots : Radio) : RadioConsole := ⟨.init, slots, false, []⟩

def call (s : RadioConsole) (n : Nat) : Option (RadioRequest × RadioPoint) := s.calls[n]?

/-- A request goes on to another point. -/
def move (n : Nat) (request : RadioRequest) (point : RadioPoint) (s : RadioConsole) :
    RadioConsole :=
  { s with calls := s.calls.set n (request, point) }

/-- A request comes in, and `_require_writes` may refuse it. -/
def enter (setup : RadioSetup) : RadioRequest → RadioPoint
  | .put .. | .delete _ =>
      if setup.writeEnabled then .bounding else .ended (.failed 403 "writes_disabled".toList)
  | .get => .bounding

/-- The checks of `_writable_slot` on an index. -/
def writable (setup : RadioSetup) (idx : Int) (s : RadioConsole) : RadioPoint :=
  match s.cache.maxChannels with
  | none => .ended (.failed 503 "radio_unavailable".toList)
  | some bound =>
      if !s.connected then .ended (.failed 503 "radio_unavailable".toList)
      else if ¬ (0 ≤ idx ∧ idx < bound) then .ended (.failed 404 "unknown_channel_slot".toList)
      else if (setup.servedChannels.get idx).isSome then
        .ended (.failed 409 "channel_is_served".toList)
      else .listing

/-- A request goes on when `max_channels` has returned. -/
def bounded (setup : RadioSetup) (s : RadioConsole) : RadioRequest → RadioPoint
  | .put idx .. | .delete idx => s.writable setup idx
  | .get => .ended .read

/-- A request goes on when `channels` has returned. -/
def listed (s : RadioConsole) : RadioRequest → RadioPoint
  | .put idx _ _ replace =>
      if (s.cache.find idx).isSome && !replace then .ended (.failed 409 "slot_occupied".toList)
      else .writing (s.cache.find idx)
  | .delete idx =>
      match s.cache.find idx with
      | none => .ended .cleared
      | some channel => .writing (some channel)
  | .get => .ended .read

/-- A refresh that is not forced. -/
def refresh (setup : RadioSetup) (clock : Readings) (faults : Faults) (s : RadioConsole) :
    RadioConsole :=
  { s with
    cache := (s.cache.refreshLocked setup false clock (s.slots.answers setup faults)).2 }

/-- What a write leaves. -/
def conclude (n : Nat) (request : RadioRequest) (done : Option Channel → RadioResponse)
    (result : Except RadioWriteError (Option Channel) × RadioState × Radio) (s : RadioConsole) :
    RadioConsole :=
  let response :=
    match result.1 with
    | .ok channel => done channel
    | .error e => failedWrite e
  { s with cache := result.2.1, slots := result.2.2 }.move n request (.ended response)

def step (setup : RadioSetup) (s : RadioConsole) : ConsoleAct → Option RadioConsole
  | .call request => some { s with calls := s.calls ++ [(request, enter setup request)] }
  | .connect connected => some { s with connected := connected }
  | .turn n clock write random faults =>
      match s.call n with
      | some (request, .bounding) =>
          let s := s.refresh setup clock faults
          some (s.move n request (s.bounded setup request))
      | some (request, .listing) =>
          let s := s.refresh setup clock faults
          some (s.move n request (s.listed request))
      | some (.put idx name secret replace, .writing _) =>
          some (s.conclude n (.put idx name secret replace) .written
            (s.cache.setChannel setup s.connected clock write faults idx name secret s.slots))
      | some (.delete idx, .writing _) =>
          some (s.conclude n (.delete idx) (fun _ => .cleared)
            (s.cache.clearChannel setup s.connected clock write faults idx random s.slots))
      | _ => none

end RadioConsole

/-- The console with a radio that has these slots. -/
def radioConsole (setup : RadioSetup) (slots : Radio) : System RadioConsole ConsoleAct :=
  ⟨.init slots, RadioConsole.step setup⟩

namespace RadioConsole

variable {setup : RadioSetup} {s t : RadioConsole}

/-! ## What overwrites, and what hides a channel -/

/-- A `PUT` without `replace` issues a `set_channel` to a slot that holds a channel. -/
def overwrites (setup : RadioSetup) (s : RadioConsole) : ConsoleAct → Bool
  | .turn n clock _ _ _ =>
      match s.call n with
      | some (.put idx _ _ false, .writing _) =>
          (s.cache.refuses setup s.connected clock.entered).isNone && s.slots.named idx
      | _ => false
  | _ => false

/-- A sweep with this device info does not read some slot that holds a channel. -/
def misses (setup : RadioSetup) (faults : Faults) (slots : Radio) (device : DeviceInfo) : Bool :=
  (List.range slots.length).any fun i => slots.named i && !covers setup faults i device

/-- A sweep leaves out a slot that holds a channel; or a channel that was written is not
listed, as the device does not answer the read-back; or another `PUT` found the slot
free before. -/
def hides (setup : RadioSetup) (s : RadioConsole) : ConsoleAct → Bool
  | .turn n clock write random faults =>
      match s.call n with
      | some (_, .bounding) | some (_, .listing) =>
          !s.cache.fresh setup clock.entered &&
            (queryDevice setup faults.query).any (misses setup faults s.slots)
      | some (request, .writing _) =>
          (request.target random).any fun (idx, name, secret) =>
            (s.cache.refuses setup s.connected clock.entered).isNone &&
              let slots := s.slots.write setup write idx name secret
              (match queryDevice setup faults.query with
                | none => slots.named idx && (s.cache.find idx).isNone
                | some device => misses setup faults slots device) ||
              slots.named idx && (s.calls.eraseIdx n).any (fills idx)
      | _ => false
  | _ => false

/-! ## What a step does -/

inductive Steps (setup : RadioSetup) (s : RadioConsole) : ConsoleAct → RadioConsole → Prop
  | calls (request : RadioRequest) :
      Steps setup s (.call request) { s with calls := s.calls ++ [(request, enter setup request)] }
  | connects (connected : Bool) :
      Steps setup s (.connect connected) { s with connected := connected }
  | bounds {n clock write random faults request} (there : s.call n = some (request, .bounding)) :
      Steps setup s (.turn n clock write random faults)
        ((s.refresh setup clock faults).move n request
          ((s.refresh setup clock faults).bounded setup request))
  | lists {n clock write random faults request} (there : s.call n = some (request, .listing)) :
      Steps setup s (.turn n clock write random faults)
        ((s.refresh setup clock faults).move n request
          ((s.refresh setup clock faults).listed request))
  | writes {n clock write random faults request existing idx name secret}
      (there : s.call n = some (request, .writing existing))
      (target : request.target random = some (idx, name, secret)) (expectName : Option Str)
      (done : Option Channel → RadioResponse) :
      Steps setup s (.turn n clock write random faults)
        (s.conclude n request done
          (s.cache.writeChannel setup s.connected clock write faults idx name secret expectName
            s.slots))

theorem console_steps {a : ConsoleAct} (taken : s.step setup a = some t) : s.Steps setup a t := by
  cases a with
  | call request =>
      cases taken
      exact .calls request
  | connect connected =>
      cases taken
      exact .connects connected
  | turn n clock write random faults =>
      simp only [step] at taken
      split at taken <;> cases taken
      next there => exact .bounds there
      next there => exact .lists there
      next there => exact .writes there rfl _ _
      next there => exact .writes there rfl _ _

theorem call_append {n : Nat} {added : RadioRequest × RadioPoint}
    {entry : RadioRequest × RadioPoint}
    (there : { s with calls := s.calls ++ [added] }.call n = some entry) :
    s.call n = some entry ∨ entry = added := by
  unfold call at there ⊢
  rw [List.getElem?_append] at there
  split at there
  · exact .inl there
  · refine .inr (List.mem_singleton.mp (List.mem_of_getElem? there))

theorem call_move {n m : Nat} {request : RadioRequest} {point : RadioPoint}
    {entry : RadioRequest × RadioPoint} (there : (s.move n request point).call m = some entry) :
    m = n ∧ entry = (request, point) ∨ m ≠ n ∧ s.call m = some entry := by
  unfold call move at there
  rw [List.getElem?_set] at there
  split at there
  · next same =>
      split at there
      · exact .inl ⟨same.symm, (Option.some.inj there).symm⟩
      · cases there
  · next other => exact .inr ⟨fun same => other same.symm, there⟩

/-! ## The list covers the radio -/

/-- Once the cache is filled, every slot that holds a channel is listed. -/
def Lists (cache : RadioState) (slots : Radio) : Prop :=
  cache.device ≠ none → ∀ idx, slots.named idx = true → (cache.find idx).isSome = true

theorem Lists.congr {cache cache' : RadioState} {slots : Radio} (lists : Lists cache slots)
    (device : cache'.device = cache.device) (channels : cache'.channels = cache.channels) :
    Lists cache' slots := by
  intro filled idx named
  have there := lists (device ▸ filled) idx named
  unfold RadioState.find RadioState.cached at there ⊢
  rwa [channels]

theorem misses_eq_false {faults : Faults} {slots : Radio} {device : DeviceInfo}
    (all : misses setup faults slots device = false) {idx : Int} (named : slots.named idx = true) :
    covers setup faults idx device = true := by
  obtain ⟨slot, there, -⟩ := Radio.named_eq_true.mp named
  unfold Radio.slot at there
  split at there
  · next low =>
      obtain ⟨i, rfl⟩ := Int.eq_ofNat_of_zero_le low
      obtain ⟨early, -⟩ := List.getElem?_eq_some_iff.mp there
      have read := List.any_eq_false.mp all i (List.mem_range.mpr early)
      simpa [named] using read
  · cases there

/-- A sweep that misses no channel lists all of them. -/
theorem lists_swept {faults : Faults} {slots : Radio} {device : DeviceInfo} {cache : RadioState}
    (all : misses setup faults slots device = false)
    (channels : cache.channels =
      some (sweepChannels setup (slots.answers setup faults).channel device.maxChannels)) :
    Lists cache slots := by
  intro _ idx named
  obtain ⟨slot, there, -⟩ := Radio.named_eq_true.mp named
  rw [RadioState.find, RadioState.cached, channels, Option.getD_some, Radio.find_swept,
    misses_eq_false all named, named, there]
  rfl

/-- A refresh of a route. -/
theorem lists_refresh {clock : Readings} {faults : Faults} (lists : Lists s.cache s.slots)
    (shows : (!s.cache.fresh setup clock.entered &&
      (queryDevice setup faults.query).any (misses setup faults s.slots)) = false) :
    Lists (s.refresh setup clock faults).cache s.slots := by
  unfold refresh RadioState.refreshLocked
  cases fresh : s.cache.fresh setup clock.entered with
  | true => exact lists
  | false =>
      have queries : (s.slots.answers setup faults).query = faults.query := rfl
      simp only [Bool.false_and, Bool.false_eq_true, if_false, queries]
      cases answered : queryDevice setup faults.query with
      | none => exact lists.congr rfl rfl
      | some device =>
          rw [fresh, answered] at shows
          exact lists_swept shows rfl

/-- The device info is not forgotten. -/
theorem device_refreshLocked {force : Bool} {clock : Readings} {answers : Answers}
    {cache : RadioState} (filled : cache.device ≠ none) :
    (cache.refreshLocked setup force clock answers).2.device ≠ none := by
  unfold RadioState.refreshLocked
  split
  · exact filled
  · split
    · exact filled
    · exact nofun

theorem named_write_of_ne {slots : Radio} {write : WriteAnswer} {idx other : Int} {name : Str}
    {secret : Option Key} (differs : other ≠ idx) :
    (slots.write setup write idx name secret).named other = slots.named other := by
  rw [Radio.named, Radio.slot_write_of_ne differs, Radio.named]

/-- A write, of which the read-back lists what was written or the list had it before. -/
theorem lists_write {cache : RadioState} {slots : Radio} {clock : Readings} {write : WriteAnswer}
    {faults : Faults} {idx : Int} {name : Str} {secret : Option Key}
    (lists : Lists cache slots)
    (shows : (match queryDevice setup faults.query with
      | none => (slots.write setup write idx name secret).named idx && (cache.find idx).isNone
      | some device => misses setup faults (slots.write setup write idx name secret) device) =
        false) :
    Lists ({ cache with lastWriteAt := some clock.entered }.refreshLocked setup true clock
        ((slots.write setup write idx name secret).answers setup faults)).2
      (slots.write setup write idx name secret) := by
  have queries : ((slots.write setup write idx name secret).answers setup faults).query =
      faults.query := rfl
  rw [RadioState.refreshLocked_force, queries]
  cases answered : queryDevice setup faults.query with
  | none =>
      rw [answered] at shows
      have before : Lists cache (slots.write setup write idx name secret) := by
        intro filled other named
        by_cases same : other = idx
        · subst same
          simpa [named, Option.isSome_iff_ne_none] using shows
        · rw [named_write_of_ne same] at named
          exact lists filled other named
      exact before.congr rfl rfl
  | some device =>
      rw [answered] at shows
      exact lists_swept shows rfl

/-! ## What holds in a run -/

structure Guarded (s : RadioConsole) : Prop where
  lists : Lists s.cache s.slots
  /-- Who looks at the list has seen the device info. -/
  known : ∀ {n request}, s.call n = some (request, .listing) → s.cache.device ≠ none
  /-- A slot that was found free is free. -/
  free : ∀ {n entry idx}, s.call n = some entry → fills idx entry = true →
    s.slots.named idx = false

theorem device_of_bounded {request : RadioRequest} (goes : s.bounded setup request = .listing) :
    s.cache.device ≠ none := by
  intro empty
  have unbounded : s.cache.maxChannels = none := by rw [RadioState.maxChannels, empty]; rfl
  cases request with
  | put | delete => simp [bounded, writable, unbounded] at goes
  | get => cases goes

theorem not_fills_bounded {request : RadioRequest} {idx : Int} :
    fills idx (request, s.bounded setup request) = false := by
  have stays : ∀ idx existing, s.writable setup idx ≠ .writing existing := by
    intro idx existing
    unfold writable
    split
    · rintro ⟨⟩
    · split
      · rintro ⟨⟩
      · split
        · rintro ⟨⟩
        · split <;> rintro ⟨⟩
  cases request with
  | get | delete => rfl
  | put idx' name secret replace =>
      cases replace with
      | true => rfl
      | false =>
          change fills idx (_, s.writable setup idx') = false
          cases goes : s.writable setup idx' with
          | writing existing => exact absurd goes (stays idx' existing)
          | bounding | listing | ended => rfl

/-- A `PUT` that goes on to write without `replace` found its slot free. -/
theorem find_of_fills {request : RadioRequest} {idx : Int}
    (goes : fills idx (request, s.listed request) = true) : s.cache.find idx = none := by
  cases request with
  | get | delete => cases goes
  | put idx' name secret replace =>
      cases replace with
      | true => cases goes
      | false =>
          rw [listed, Bool.not_false, Bool.and_true] at goes
          split at goes
          · cases goes
          · next vacant =>
              have same : idx' = idx := of_decide_eq_true goes
              exact same ▸ Option.not_isSome_iff_eq_none.mp vacant

theorem enter_cases (setup : RadioSetup) (request : RadioRequest) :
    enter setup request = .bounding ∨ ∃ response, enter setup request = .ended response := by
  cases request with
  | get => exact .inl rfl
  | put | delete =>
      simp only [enter]
      split
      · exact .inl rfl
      · exact .inr ⟨_, rfl⟩

theorem writing_of_fills {idx : Int} {request : RadioRequest} {point : RadioPoint}
    (filling : fills idx (request, point) = true) : ∃ existing, point = .writing existing := by
  unfold fills at filling
  split at filling
  · next same => exact ⟨_, congrArg Prod.snd same⟩
  · cases filling

theorem guarded_step (guarded : s.Guarded) {a : ConsoleAct} (shows : s.hides setup a = false)
    (taken : s.step setup a = some t) : t.Guarded := by
  cases console_steps taken with
  | calls request =>
      refine ⟨guarded.lists, fun there => ?_, fun there filling => ?_⟩
      · rcases call_append there with before | same
        · exact guarded.known before
        · have listing := congrArg Prod.snd same
          rcases enter_cases setup request with enters | ⟨response, enters⟩ <;>
            exact absurd (listing.trans enters) nofun
      · rcases call_append there with before | rfl
        · exact guarded.free before filling
        · obtain ⟨existing, writing⟩ := writing_of_fills filling
          rcases enter_cases setup request with enters | ⟨response, enters⟩ <;>
            exact absurd (writing.symm.trans enters) nofun
  | connects connected => exact ⟨guarded.lists, guarded.known, guarded.free⟩
  | @bounds n clock write random faults request there =>
      simp only [hides, there] at shows
      refine ⟨lists_refresh guarded.lists shows, fun there' => ?_, fun there' filling => ?_⟩
      · rcases call_move there' with ⟨-, same⟩ | ⟨-, before⟩
        · rw [Prod.mk.injEq] at same
          exact device_of_bounded same.2.symm
        · exact device_refreshLocked (guarded.known before)
      · rcases call_move there' with ⟨-, rfl⟩ | ⟨-, before⟩
        · rw [not_fills_bounded] at filling
          cases filling
        · exact guarded.free before filling
  | @lists n clock write random faults request there =>
      simp only [hides, there] at shows
      have filled : (s.refresh setup clock faults).cache.device ≠ none :=
        device_refreshLocked (guarded.known there)
      have covered := lists_refresh guarded.lists shows
      refine ⟨covered, fun there' => ?_, fun there' filling => ?_⟩
      · exact filled
      · rcases call_move there' with ⟨-, rfl⟩ | ⟨-, before⟩
        · have vacant := find_of_fills filling
          by_contra named
          have there := covered filled _ (Bool.eq_true_of_not_eq_false named)
          rw [vacant] at there
          cases there
        · exact guarded.free before filling
  | @writes n clock write random faults request existing idx name secret there target expectName
      done =>
      simp only [hides, there, target, Option.any_some] at shows
      have elsewhere : ∀ {result entry m idx'}, (s.conclude n request done result).call m =
          some entry → fills idx' entry = true → m ≠ n ∧ s.call m = some entry := by
        intro result entry m idx' there' filling
        rcases call_move there' with ⟨-, rfl⟩ | ⟨other, before⟩
        · obtain ⟨existing', writing⟩ := writing_of_fills filling
          cases writing
        · exact ⟨other, before⟩
      have listing : ∀ {result m request'}, (s.conclude n request done result).call m =
          some (request', .listing) → s.cache.device ≠ none := by
        intro result m request' there'
        rcases call_move there' with ⟨-, same⟩ | ⟨-, before⟩
        · cases same
        · exact guarded.known before
      cases refused : s.cache.refuses setup s.connected clock.entered with
      | some refusal =>
          rw [RadioState.writeChannel_of_refuses refused]
          exact ⟨guarded.lists, listing, fun there' filling =>
            guarded.free (elsewhere there' filling).2 filling⟩
      | none =>
          rw [refused, Option.isNone_none, Bool.true_and, Bool.or_eq_false_iff] at shows
          have left : (s.cache.writeChannel setup s.connected clock write faults idx name secret
              expectName s.slots).2 = _ := RadioState.writeChannel_of_passes refused
          refine ⟨?_, fun there' => ?_, @fun m entry idx' there' filling => ?_⟩
          · change Lists (Prod.fst (Prod.snd _)) (Prod.snd (Prod.snd _))
            rw [left]
            exact lists_write guarded.lists shows.1
          · change (Prod.fst (Prod.snd _) : RadioState).device ≠ none
            rw [left]
            exact device_refreshLocked (listing there')
          · obtain ⟨other, before⟩ := elsewhere there' filling
            change Radio.named (Prod.snd (Prod.snd _)) idx' = false
            rw [left]
            by_cases same : idx' = idx
            · -- another `PUT` that found this slot free rules the write out
              subst same
              have rival : (s.calls.eraseIdx n).any (fills idx') = true :=
                List.any_eq_true.mpr
                  ⟨entry, List.mem_eraseIdx_iff_getElem?.mpr ⟨m, other, before⟩, filling⟩
              simpa [rival] using shows.2
            · rw [named_write_of_ne same]
              exact guarded.free before filling

theorem guarded {slots : Radio}
    (reached : (radioConsole setup slots).Reachable (fun s a => s.hides setup a = false) s) :
    s.Guarded := by
  refine reached.invariant (motive := Guarded) ?_ ?_
  · exact ⟨fun filled => absurd rfl filled, nofun, nofun⟩
  · exact fun _ _ _ _ prior shows taken => guarded_step prior shows taken

/-- In a run where no step hides a channel from a `PUT`, none without `replace` issues a
`set_channel` to a slot that holds one. -/
theorem never_overwrites {slots : Radio}
    (reached : (radioConsole setup slots).Reachable (fun s a => s.hides setup a = false) s)
    (a : ConsoleAct) : s.overwrites setup a = false := by
  have guarded := guarded reached
  unfold overwrites
  split
  · split
    · next there =>
        rw [guarded.free there (decide_eq_true rfl), Bool.and_false]
    · rfl
  · rfl

/-- A console that may write. -/
def openRadio : RadioSetup := { plainRadio with writeEnabled := true }

/-- A `PUT` comes in and looks at the slot, at given faults of its one sweep. -/
def looks (faults : Faults) : List ConsoleAct :=
  [.connect true, .call (.put 0 "paris".toList (some (.replicate 16 1)) false),
    .turn 0 ⟨0, 1, 0⟩ .accepts (.replicate 16 2) faults,
    .turn 0 ⟨2, 2, 0⟩ .accepts (.replicate 16 2) faults]

/-- Then it writes. -/
def puts : ConsoleAct := .turn 0 ⟨3, 4, 0⟩ .accepts (.replicate 16 2) (faultless 1)

/-- A free slot is written. -/
theorem never_overwrites_free :
    ∃ s t : RadioConsole, s.step openRadio puts = some t ∧ t.slots ≠ s.slots ∧
      s.overwrites openRadio puts = false := by
  obtain ⟨s, reached, goes⟩ := System.reaches
    (radioConsole openRadio [⟨[], .replicate 16 3⟩]) (fun s a => s.hides openRadio a = false)
    (fun s => (s.step openRadio puts).any fun t => decide (t.slots ≠ s.slots))
    (looks (faultless 1)) (fun _ _ _ => trivial) (by decide +kernel)
  obtain ⟨t, taken, written⟩ := (Option.any_eq_true _ _).mp goes
  exact ⟨s, t, taken, of_decide_eq_true written,
    never_overwrites (reached.mono fun _ _ both => both.1) puts⟩

/-- The read of a slot that holds a channel raises, and a `PUT` overwrites the channel. -/
theorem unread_channel_overwritten :
    ∃ s t : RadioConsole, (radioConsole openRadio [⟨"london".toList, .replicate 16 3⟩]).Reachable
        (fun _ _ => True) s ∧
      s.overwrites openRadio puts = true ∧ s.step openRadio puts = some t ∧
      t.slots = [⟨"paris".toList, .replicate 16 1⟩] := by
  obtain ⟨s, reached, overwrites, goes⟩ := System.reaches
    (radioConsole openRadio [⟨"london".toList, .replicate 16 3⟩]) (fun _ _ => True)
    (fun s => s.overwrites openRadio puts = true ∧ (s.step openRadio puts).any fun t =>
      decide (t.slots = [⟨"paris".toList, .replicate 16 1⟩]))
    (looks { faultless 1 with channel := fun _ => some .raises }) (fun _ _ _ => trivial)
    (by decide +kernel)
  obtain ⟨t, taken, written⟩ := (Option.any_eq_true _ _).mp goes
  exact ⟨s, t, reached.mono fun _ _ _ => trivial, overwrites, taken, of_decide_eq_true written⟩

end RadioConsole

end Zorkbot.Admin
