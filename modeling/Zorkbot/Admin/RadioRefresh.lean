/-
# Refreshing the cache

A refresh whose device query raises leaves the cached device info and channels as they
are and says since when they are stale. A refresh whose device query answers replaces
both at once. The channel list is what could be read: a slot whose read fails is left
out, like one without a name, and the refresh does not fail for it.
-/

import Zorkbot.Admin.Radio

namespace Zorkbot.Admin

open Zorkbot.Bot (Str)

/-- A refresh: whether it is forced, what the clocks show and what the radio answers. -/
structure Refresh where
  force : Bool
  clock : Readings
  answers : Answers

/-- What becomes of a refresh. -/
inductive RefreshOutcome
  /-- The cache is fresh. -/
  | skips
  | fails (wall : Int)
  | succeeds
  deriving DecidableEq

/-- When a refresh failed, if it did. -/
def RefreshOutcome.failedAt : RefreshOutcome → Option Int
  | .fails wall => some wall
  | .skips | .succeeds => none

/-- The time of the first failure since the last success. -/
def firstFailure (outcomes : List RefreshOutcome) : Option Int :=
  (outcomes.reverse.takeWhile fun o => decide (o ≠ .succeeds)).reverse.findSome?
    RefreshOutcome.failedAt

/-- The query is answered with an `ERROR` event. -/
def Answer.isError {α : Type} : Answer α → Bool
  | .error _ => true
  | .raises | .malformed | .info _ => false

variable {setup : RadioSetup}

theorem firstFailure_append (outcomes : List RefreshOutcome) (o : RefreshOutcome) :
    firstFailure (outcomes ++ [o]) =
      match o with
      | .skips => firstFailure outcomes
      | .fails wall => firstFailure outcomes <|> some wall
      | .succeeds => none := by
  unfold firstFailure
  rw [List.reverse_append, List.reverse_singleton, List.singleton_append, List.takeWhile_cons]
  cases o with
  | skips => simp [List.findSome?_append, RefreshOutcome.failedAt]
  | fails wall => simp [List.findSome?_append, RefreshOutcome.failedAt]
  | succeeds => rfl

/-- What a sweep lists is what it read under a name. -/
theorem mem_sweepChannels {answer : Nat → Answer ChannelInfo} {maxChannels : Option Int}
    {channel : Channel} :
    channel ∈ sweepChannels setup answer maxChannels ↔
      setup.commands.getChannel = true ∧ ∃ (i : Nat) (payload : ChannelInfo),
        (i : Int) < maxChannels.getD 0 ∧ answer i = .info payload ∧ payload.channelName ≠ [] ∧
        channel = ⟨payload.channelIdx.getD i, payload.channelName, payload.channelHash⟩ := by
  unfold sweepChannels
  split
  · next there =>
      simp only [List.mem_filterMap, List.mem_range, Int.lt_toNat, there, true_and]
      refine exists_congr fun i => ?_
      cases answer i with
      | raises | error | malformed => simp [sweptChannel]
      | info payload =>
          simp only [sweptChannel]
          split
          · next blank => simp_all
          · next named =>
              simp [named, eq_comm]
  · next missing => simp [missing]

namespace RadioState

variable {s : RadioState}

def outcome (setup : RadioSetup) (call : Refresh) (s : RadioState) : RefreshOutcome :=
  if s.fresh setup call.clock.entered && !call.force then .skips
  else if setup.commands.sendDeviceQuery then
    match call.answers.query with
    | .raises | .error _ => .fails call.clock.wall
    | .malformed | .info _ => .succeeds
  else .succeeds

/-- The cache after a refresh. -/
def refreshed (setup : RadioSetup) (s : RadioState) (call : Refresh) : RadioState :=
  (s.refreshLocked setup call.force call.clock call.answers).2

/-- The cache after some refreshes. -/
def refreshes (setup : RadioSetup) (calls : List Refresh) (s : RadioState) : RadioState :=
  calls.foldl (refreshed setup) s

/-- What becomes of each of some refreshes. -/
def outcomes (setup : RadioSetup) : List Refresh → RadioState → List RefreshOutcome
  | [], _ => []
  | call :: rest, s => s.outcome setup call :: outcomes setup rest (s.refreshed setup call)

theorem refreshes_append (calls : List Refresh) (call : Refresh) :
    s.refreshes setup (calls ++ [call]) = (s.refreshes setup calls).refreshed setup call := by
  rw [refreshes, List.foldl_append]
  rfl

theorem outcomes_append (calls : List Refresh) (call : Refresh) :
    s.outcomes setup (calls ++ [call]) =
      s.outcomes setup calls ++ [(s.refreshes setup calls).outcome setup call] := by
  induction calls generalizing s with
  | nil => rfl
  | cons first rest ih =>
      rw [List.cons_append, outcomes, ih]
      rfl

/-- One refresh, when the query is not answered with an error. -/
theorem refreshed_eq {call : Refresh} (plain : call.answers.query.isError = false) :
    s.refreshed setup call =
      match s.outcome setup call with
      | .skips => s
      | .fails wall => { s with staleSince := s.staleSince <|> some wall }
      | .succeeds =>
          { s with
            device := queryDevice setup call.answers.query
            channels := (queryDevice setup call.answers.query).map fun device =>
              sweepChannels setup call.answers.channel device.maxChannels
            fetchedAt := call.clock.left
            staleSince := none } := by
  unfold refreshed refreshLocked outcome queryDevice
  cases s.fresh setup call.clock.entered && !call.force with
  | true => rfl
  | false =>
      cases setup.commands.sendDeviceQuery with
      | false => rfl
      | true =>
          cases answer : call.answers.query with
          | error => simp [answer, Answer.isError] at plain
          | raises | malformed | info => rfl

/-- The cache is stale since the first failure after the last success. -/
theorem staleSince_refreshes (fine : s.staleSince = none) {calls : List Refresh}
    (plain : ∀ call ∈ calls, call.answers.query.isError = false) :
    (s.refreshes setup calls).staleSince = firstFailure (s.outcomes setup calls) := by
  induction calls using List.reverseRecOn with
  | nil => exact fine
  | append_singleton calls call ih =>
      have earlier := ih fun c listed => plain c (List.mem_append_left _ listed)
      rw [refreshes_append, outcomes_append, firstFailure_append,
        refreshed_eq (plain call (by simp)), ← earlier]
      cases (s.refreshes setup calls).outcome setup call <;> rfl

/-- A query that succeeds has an answer, which is the device info if it carries one. -/
theorem queryDevice_of_succeeds {call : Refresh} (succeeds : s.outcome setup call = .succeeds) :
    ∃ device, queryDevice setup call.answers.query = some device ∧
      ∀ payload, call.answers.query = .info payload → setup.commands.sendDeviceQuery = true →
        device = payload := by
  unfold outcome at succeeds
  unfold queryDevice
  split at succeeds
  · cases succeeds
  · split at succeeds
    · next there =>
        cases answer : call.answers.query with
        | raises | error => simp [answer] at succeeds
        | malformed => exact ⟨_, if_pos there, nofun⟩
        | info payload =>
            exact ⟨payload, if_pos there, fun payload' same _ => Answer.info.inj same⟩
    · next missing => exact ⟨_, if_neg missing, fun _ _ there => absurd there missing⟩

/-- In a sequence of refreshes none of whose device queries is answered with an error, one
whose query raises changes neither the device info nor the channels, and one whose query
answers replaces both: the channels by those slots that were read under a name. The cache
is stale since the first failure after the last success. -/
theorem refresh_keeps_or_replaces (calls : List Refresh) (call : Refresh)
    (plain : ∀ c ∈ calls ++ [call], c.answers.query.isError = false) :
    (init.refreshes setup (calls ++ [call])).staleSince =
        firstFailure (init.outcomes setup (calls ++ [call])) ∧
      match (init.refreshes setup calls).outcome setup call with
      | .skips => init.refreshes setup (calls ++ [call]) = init.refreshes setup calls
      | .fails _ =>
          (init.refreshes setup (calls ++ [call])).device = (init.refreshes setup calls).device ∧
          (init.refreshes setup (calls ++ [call])).channels =
            (init.refreshes setup calls).channels
      | .succeeds =>
          (init.refreshes setup (calls ++ [call])).staleSince = none ∧
          ∃ device channels, (init.refreshes setup (calls ++ [call])).device = some device ∧
            (init.refreshes setup (calls ++ [call])).channels = some channels ∧
            (∀ payload, call.answers.query = .info payload →
              setup.commands.sendDeviceQuery = true → device = payload) ∧
            ∀ channel, channel ∈ channels ↔ setup.commands.getChannel = true ∧
              ∃ (i : Nat) (payload : ChannelInfo), (i : Int) < device.maxChannels.getD 0 ∧
                call.answers.channel i = .info payload ∧ payload.channelName ≠ [] ∧
                channel =
                  ⟨payload.channelIdx.getD i, payload.channelName, payload.channelHash⟩ := by
  refine ⟨staleSince_refreshes rfl plain, ?_⟩
  rw [refreshes_append, refreshed_eq (plain call (by simp))]
  cases came : (init.refreshes setup calls).outcome setup call with
  | skips => rfl
  | fails => exact ⟨rfl, rfl⟩
  | succeeds =>
      obtain ⟨device, answered, payload⟩ := queryDevice_of_succeeds came
      refine ⟨rfl, device, _, answered, ?_, payload, fun channel => mem_sweepChannels⟩
      rw [answered]
      rfl

/-- A refresh at a given time, when the radio has these channels and some reads may raise. -/
def refreshAt (seconds : ℚ) (query : Answer DeviceInfo) (channels : List (Answer ChannelInfo)) :
    Refresh :=
  ⟨true, ⟨seconds, seconds, ⌊seconds⌋⟩, query, fun i => (channels[i]?).getD .raises⟩

/-- The radio has one channel, and answers everything. -/
def finds : Refresh := refreshAt 10 (.info ⟨some 1, []⟩) [.info ⟨some 0, "london".toList, none⟩]

/-- A refresh succeeds, and the next two fail. -/
theorem refresh_keeps_or_replaces_failed :
    (init.refreshes plainRadio
      [finds, refreshAt 20 .raises [], refreshAt 30 .raises []]).staleSince =
      some 20 :=
  (refresh_keeps_or_replaces [finds, refreshAt 20 .raises []] (refreshAt 30 .raises [])
    (by simp [finds, refreshAt, Answer.isError])).1.trans (by decide +kernel)

/-- The read of a cached channel raises, and the refresh leaves the channel out. -/
theorem failed_read_leaves_out :
    (init.refreshes plainRadio [finds]).channels = some [⟨0, "london".toList, none⟩] ∧
      (init.refreshes plainRadio
        [finds, refreshAt 20 (.info ⟨some 1, []⟩) [.raises]]).channels = some [] ∧
      (init.refreshes plainRadio
        [finds, refreshAt 20 (.info ⟨some 1, []⟩) [.raises]]).staleSince = none := by
  decide +kernel

end RadioState

end Zorkbot.Admin
