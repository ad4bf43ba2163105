/-
# The attached radio

`RadioState` caches what the radio says of itself and of its channels, and writes
channel slots. Each of its operations holds one lock from its first command to its last
one, so it is one function here: of the cache, of the clocks, and of what the radio
does at each command. The radio may fail at any of them, as an exception or as an event
that carries an error.
-/

import Mathlib.Data.Rat.Floor
import Zorkbot.Bot.Registry
import Zorkbot.Data.Binary64

namespace Zorkbot.Admin

open Zorkbot.Bot (Str str)

/-- What a command to the radio returns. -/
inductive Answer (α : Type)
  | raises
  /-- An `ERROR` event. Its payload is a dict without the items read here. -/
  | error (reason : Str)
  /-- An event whose payload is not a dict. -/
  | malformed
  | info (payload : α)

/-- The payload of a device query. -/
structure DeviceInfo where
  /-- `max_channels`, if it is an integer. -/
  maxChannels : Option Int
  rest : List (Str × Str)
  deriving DecidableEq

/-- The payload of a channel read. A missing name is empty. -/
structure ChannelInfo where
  channelIdx : Option Int
  channelName : Str
  channelHash : Option Str

/-- A cached channel. -/
structure Channel where
  idx : Int
  name : Str
  hash : Option Str
  deriving DecidableEq

/-- A channel's key. -/
abbrev Key := Vector UInt8 16

/-- The commands a MeshCore object has. -/
structure Commands where
  sendDeviceQuery : Bool := true
  getChannel : Bool := true
  setChannel : Bool := true

/-- The arguments of `RadioState`, and what the library and the firmware do with names and
keys. -/
structure RadioSetup where
  commands : Commands := {}
  cacheSeconds : ℚ := 30
  servedChannels : Table Int Str
  writeEnabled : Bool := false
  writeMinInterval : ℚ := 2
  /-- How the interval is shown. -/
  intervalText : Str
  /-- The key the library derives from a name. -/
  derive : Str → Key
  /-- The `channel_hash` of a key. -/
  hash : Key → Str
  /-- What the firmware's name buffer keeps of a name. -/
  keeps : Str → Str
  keeps_short : ∀ name, (name.map Char.utf8Size).sum ≤ 31 → keeps name = name

structure RadioState where
  device : Option DeviceInfo
  channels : Option (List Channel)
  fetchedAt : ℚ
  staleSince : Option Int
  lastWriteAt : Option ℚ
  deriving DecidableEq

/-- The clocks during an operation. -/
structure Readings where
  /-- `time.monotonic` when the lock is held, -/
  entered : ℚ
  /-- and after the last command. -/
  left : ℚ
  /-- `int(time.time())` at a failure. -/
  wall : Int

/-- What the radio returns for each command of a refresh. -/
structure Answers where
  query : Answer DeviceInfo
  channel : Nat → Answer ChannelInfo

/-! ## Reads -/

/-- `_query_device`, or `none` if it raises. -/
def queryDevice (setup : RadioSetup) (answer : Answer DeviceInfo) : Option DeviceInfo :=
  if setup.commands.sendDeviceQuery then
    match answer with
    | .raises => none
    | .error reason => some ⟨none, [("reason".toList, reason)]⟩
    | .malformed => some ⟨none, []⟩
    | .info payload => some payload
  else some ⟨none, []⟩

/-- What a sweep lists for an index. -/
def sweptChannel (idx : Nat) : Answer ChannelInfo → Option Channel
  | .raises | .error _ | .malformed => none
  | .info payload =>
      -- an unconfigured slot is not a channel
      if payload.channelName = [] then none
      else some ⟨payload.channelIdx.getD idx, payload.channelName, payload.channelHash⟩

/-- `_sweep_channels`. -/
def sweepChannels (setup : RadioSetup) (answer : Nat → Answer ChannelInfo)
    (maxChannels : Option Int) : List Channel :=
  if setup.commands.getChannel then
    (List.range (maxChannels.getD 0).toNat).filterMap fun idx => sweptChannel idx (answer idx)
  else []

namespace RadioState

def init : RadioState := ⟨none, none, 0, none, none⟩

/-- The cache is filled and not too old. -/
def fresh (setup : RadioSetup) (now : ℚ) (s : RadioState) : Bool :=
  s.device.isSome && decide (Binary64.nearest (now - s.fetchedAt) < setup.cacheSeconds)

/-- `_refresh_locked`. -/
def refreshLocked (setup : RadioSetup) (force : Bool) (clock : Readings) (answers : Answers)
    (s : RadioState) : Bool × RadioState :=
  if s.fresh setup clock.entered && !force then (true, s)
  else
    match queryDevice setup answers.query with
    | none => (false, { s with staleSince := s.staleSince <|> some clock.wall })
    | some device =>
        (true,
          { s with
            device := some device
            channels := some (sweepChannels setup answers.channel device.maxChannels)
            fetchedAt := clock.left
            staleSince := none })

/-- The cached channels, as `channels` returns them. -/
def cached (s : RadioState) : List Channel := s.channels.getD []

/-- What `max_channels` returns. -/
def maxChannels (s : RadioState) : Option Int :=
  (s.device.bind DeviceInfo.maxChannels).filter fun value => decide (0 < value)

/-- The cached channel of a slot. -/
def find (idx : Int) (s : RadioState) : Option Channel :=
  s.cached.find? fun channel => decide (channel.idx = idx)

end RadioState

/-! ## The slots on the radio -/

/-- A channel slot. -/
structure Slot where
  name : Str
  key : Key
  deriving DecidableEq

/-- The slots of the radio. -/
abbrev Radio := List Slot

/-- How a read fails. -/
inductive Failure
  | raises
  | error (reason : Str)
  | malformed

/-- What the radio does at each command of a refresh, where a read that does not fail
answers with what the slot holds. -/
structure Faults where
  query : Answer DeviceInfo
  channel : Nat → Option Failure

/-- What the radio does with a `set_channel`. -/
inductive WriteAnswer
  | accepts
  | rejects
  /-- The slot is written, and the acknowledgement does not arrive. -/
  | losesAck
  | raises

def WriteAnswer.lands : WriteAnswer → Bool
  | .accepts | .losesAck => true
  | .rejects | .raises => false

namespace Radio

/-- The slot of an index. -/
def slot (radio : Radio) (idx : Int) : Option Slot :=
  if 0 ≤ idx then radio[idx.toNat]? else none

/-- The slot holds a channel with a name. -/
def named (radio : Radio) (idx : Int) : Bool :=
  (radio.slot idx).any fun slot => decide (slot.name ≠ [])

def channelAnswer (setup : RadioSetup) (radio : Radio) (idx : Nat) :
    Option Failure → Answer ChannelInfo
  | some .raises => .raises
  | some (.error reason) => .error reason
  | some .malformed => .malformed
  | none =>
      match radio[idx]? with
      | some slot => .info ⟨some idx, slot.name, some (setup.hash slot.key)⟩
      | none => .error "no such channel".toList

def answers (setup : RadioSetup) (faults : Faults) (radio : Radio) : Answers :=
  ⟨faults.query, fun idx => radio.channelAnswer setup idx (faults.channel idx)⟩

/-- The key of a channel that is written: the library derives it for a `#` name and when
there is none. -/
def writtenKey (setup : RadioSetup) (name : Str) (secret : Option Key) : Key :=
  if name.head? = some '#' then setup.derive name else secret.getD (setup.derive name)

/-- A slot is assigned, if the radio has it. -/
def assign (setup : RadioSetup) (idx : Int) (name : Str) (secret : Option Key) (radio : Radio) :
    Radio :=
  if 0 ≤ idx then radio.set idx.toNat ⟨setup.keeps name, writtenKey setup name secret⟩ else radio

/-- The slots after a `set_channel`. -/
def write (setup : RadioSetup) (write : WriteAnswer) (idx : Int) (name : Str)
    (secret : Option Key) (radio : Radio) : Radio :=
  if write.lands then radio.assign setup idx name secret else radio

end Radio

/-! ## Writes -/

inductive WriteErrorCode
  | radioUnavailable
  | writeTooFrequent
  | radioWriteFailed
  deriving DecidableEq

structure RadioWriteError where
  code : WriteErrorCode
  description : Str
  deriving DecidableEq

namespace RadioState

/-- A write is refused before the radio is touched. -/
def refuses (setup : RadioSetup) (connected : Bool) (now : ℚ) (s : RadioState) :
    Option RadioWriteError :=
  if !setup.commands.setChannel || !connected then
    some ⟨.radioUnavailable,
      "no radio is attached, or it has not finished syncing".toList⟩
  else if s.lastWriteAt.any fun last =>
      decide (Binary64.nearest (now - last) < setup.writeMinInterval) then
    some ⟨.writeTooFrequent, "radio writes are limited to one every ".toList ++
      setup.intervalText ++ "s to spare the device's flash".toList⟩
  else none

/-- What a write returns after its read-back. -/
def judge (idx : Int) (expectName : Option Str) (readBack : Bool × RadioState) :
    Except RadioWriteError (Option Channel) :=
  if readBack.1 = false then
    .error ⟨.radioWriteFailed,
      "the radio did not answer a read-back, so the slot's state is unknown".toList⟩
  else if (readBack.2.find idx).map Channel.name ≠ expectName then
    .error ⟨.radioWriteFailed,
      "the radio did not accept the write to channel ".toList ++ str idx⟩
  else .ok (readBack.2.find idx)

/-- `_write_channel`. Of the outcome of the command only the log tells. -/
def writeChannel (setup : RadioSetup) (connected : Bool) (clock : Readings) (write : WriteAnswer)
    (faults : Faults) (idx : Int) (name : Str) (secret : Option Key) (expectName : Option Str)
    (s : RadioState) (radio : Radio) :
    Except RadioWriteError (Option Channel) × RadioState × Radio :=
  match s.refuses setup connected clock.entered with
  | some refusal => (.error refusal, s, radio)
  | none =>
      let radio := radio.write setup write idx name secret
      let readBack := { s with lastWriteAt := some clock.entered }.refreshLocked setup true clock
        (radio.answers setup faults)
      (judge idx expectName readBack, readBack.2, radio)

/-- `set_channel`. -/
def setChannel (setup : RadioSetup) (connected : Bool) (clock : Readings) (write : WriteAnswer)
    (faults : Faults) (idx : Int) (name : Str) (secret : Option Key) :
    RadioState → Radio → Except RadioWriteError (Option Channel) × RadioState × Radio :=
  writeChannel setup connected clock write faults idx name secret (some name)

/-- `clear_channel`, with the random key that `secrets` makes up. -/
def clearChannel (setup : RadioSetup) (connected : Bool) (clock : Readings) (write : WriteAnswer)
    (faults : Faults) (idx : Int) (random : Key) :
    RadioState → Radio → Except RadioWriteError (Option Channel) × RadioState × Radio :=
  writeChannel setup connected clock write faults idx [] (some random) none

end RadioState

/-- Where it does not matter what the library and the firmware do with names and keys. -/
def plainRadio : RadioSetup where
  servedChannels := .empty
  intervalText := "2".toList
  derive _ := .replicate 16 0
  hash _ := []
  keeps name := name
  keeps_short _ _ := rfl

/-- The device query answers with so many slots, and no read fails. -/
def faultless (slots : Int) : Faults := ⟨.info ⟨some slots, []⟩, fun _ => none⟩

end Zorkbot.Admin
