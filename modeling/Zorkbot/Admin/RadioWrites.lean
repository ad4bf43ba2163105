/-
# What a channel write reports

A write is judged by a read-back, and of the slot that was written the read-back tells
the name. So a slot that keeps the requested name under another key passes for written,
and a slot that the read-back does not read passes for cleared. Nothing else is
reported wrongly.
-/

import Zorkbot.Admin.Radio

namespace Zorkbot.Admin

open Zorkbot.Bot (Str str)

variable {setup : RadioSetup} {faults : Faults} {radio : Radio} {idx : Int}

/-- A refresh with this device info reads the slot, and the read does not fail. -/
def covers (setup : RadioSetup) (faults : Faults) (idx : Int) (device : DeviceInfo) : Bool :=
  setup.commands.getChannel && decide (0 ≤ idx ∧ idx < device.maxChannels.getD 0) &&
    (faults.channel idx.toNat).isNone

namespace Radio

/-- What a sweep lists for an index is what the slot holds, under that index. -/
theorem sweptChannel_answer (i : Nat) :
    sweptChannel i (radio.channelAnswer setup i (faults.channel i)) =
      if (faults.channel i).isNone && radio.named i then
        (radio.slot i).map fun slot => ⟨i, slot.name, some (setup.hash slot.key)⟩
      else none := by
  have same : radio.slot i = radio[i]? := by simp [slot]
  rw [named, same]
  cases fault : faults.channel i with
  | some failure => cases failure <;> rfl
  | none =>
      cases there : radio[i]? with
      | none => simp [channelAnswer, there, sweptChannel]
      | some slot => by_cases blank : slot.name = [] <;>
          simp [channelAnswer, there, sweptChannel, blank]

/-- A slot is listed under its own index only. -/
theorem any_sweptChannel (i : Nat) :
    ((sweptChannel i ((radio.answers setup faults).channel i)).any fun channel =>
      decide (channel.idx = idx)) = true ↔
        (faults.channel i).isNone = true ∧ radio.named i = true ∧ (i : Int) = idx := by
  change (sweptChannel i (radio.channelAnswer setup i (faults.channel i))).any _ = true ↔ _
  rw [sweptChannel_answer]
  cases free : (faults.channel i).isNone <;> cases named : radio.named i <;>
    simp only [Bool.and_true, Bool.and_false, Bool.false_eq_true, if_true, if_false,
      Option.any_none, false_and, true_and]
  obtain ⟨slot, there, -⟩ := (Option.any_eq_true _ _).mp named
  simp [there]

/-- A sweep lists a slot with a name if it reads it, and nothing else under its index. -/
theorem find_swept (device : DeviceInfo) :
    ((sweepChannels setup (radio.answers setup faults).channel device.maxChannels).find?
        fun channel => decide (channel.idx = idx)) =
      if covers setup faults idx device && radio.named idx then
        (radio.slot idx).map fun slot => ⟨idx, slot.name, some (setup.hash slot.key)⟩
      else none := by
  unfold sweepChannels covers
  cases setup.commands.getChannel with
  | false => rfl
  | true =>
      simp only [if_true, Bool.true_and, List.find?_filterMap]
      split
      · next reads =>
          simp only [Bool.and_eq_true, decide_eq_true_eq] at reads
          obtain ⟨⟨⟨low, high⟩, free⟩, named⟩ := reads
          obtain ⟨i, rfl⟩ := Int.eq_ofNat_of_zero_le low
          rw [Int.toNat_natCast] at free
          rw [(List.find?_range_eq_some (i := i)).mpr]
          · change sweptChannel i (radio.channelAnswer setup i (faults.channel i)) = _
            rw [sweptChannel_answer, free, named]
            rfl
          · refine ⟨any_sweptChannel i |>.mpr ⟨free, named, rfl⟩, List.mem_range.mpr (by omega), ?_⟩
            intro j early
            rw [Bool.not_eq_true', Bool.eq_false_iff]
            intro other
            have same := ((any_sweptChannel j).mp other).2.2
            omega
      · next unread =>
          rw [List.find?_eq_none.mpr]
          · rfl
          · intro i early here
            obtain ⟨free, named, rfl⟩ := (any_sweptChannel i).mp here
            have bound := List.mem_range.mp early
            refine unread ?_
            simp only [Int.toNat_natCast, free, named, Bool.and_true, decide_eq_true_eq]
            omega

/-- What a slot holds after it was assigned. -/
theorem slot_assign {name : Str} {secret : Option Key} :
    (radio.assign setup idx name secret).slot idx =
      (radio.slot idx).map fun _ => ⟨setup.keeps name, writtenKey setup name secret⟩ := by
  unfold assign slot
  by_cases low : 0 ≤ idx
  · simp only [if_pos low]
    by_cases there : idx.toNat < radio.length
    · rw [List.getElem?_set_self there, List.getElem?_eq_getElem there]
      rfl
    · rw [List.getElem?_eq_none (by simpa using there),
        List.getElem?_eq_none (by simpa using there)]
      rfl
  · simp only [if_neg low, Option.map_none]

/-- A write leaves the other slots alone. -/
theorem slot_write_of_ne {write : WriteAnswer} {name : Str} {secret : Option Key} {other : Int}
    (differs : other ≠ idx) :
    (radio.write setup write idx name secret).slot other = radio.slot other := by
  unfold Radio.write assign slot
  split
  · split
    · split
      · rw [List.getElem?_set_ne (by omega)]
      · rfl
    · rfl
  · rfl

theorem named_eq_true : radio.named idx = true ↔
    ∃ slot, radio.slot idx = some slot ∧ slot.name ≠ [] := by
  simp [named, Option.any_eq_true]

end Radio

namespace RadioState

variable {s : RadioState} {connected : Bool} {clock : Readings} {write : WriteAnswer} {name : Str}
  {secret : Option Key} {expectName : Option Str}

theorem refreshLocked_force (answers : Answers) :
    s.refreshLocked setup true clock answers =
      match queryDevice setup answers.query with
      | none => (false, { s with staleSince := s.staleSince <|> some clock.wall })
      | some device =>
          (true,
            { s with
              device := some device
              channels := some (sweepChannels setup answers.channel device.maxChannels)
              fetchedAt := clock.left
              staleSince := none }) := by
  rw [refreshLocked, Bool.not_true, Bool.and_false]
  rfl

/-- What the read-back finds under the index of a slot. -/
def readBack (setup : RadioSetup) (faults : Faults) (idx : Int) (radio : Radio)
    (device : DeviceInfo) : Option Str :=
  if covers setup faults idx device && radio.named idx then (radio.slot idx).map Slot.name else none

/-- A write returns normally if it is not refused, and the device answers the read-back and
that finds what is expected. -/
theorem writeChannel_ok :
    (∃ channel, (s.writeChannel setup connected clock write faults idx name secret expectName
        radio).1 = .ok channel) ↔
      s.refuses setup connected clock.entered = none ∧
        ∃ device, queryDevice setup faults.query = some device ∧
          readBack setup faults idx (radio.write setup write idx name secret) device =
            expectName := by
  cases refusal : s.refuses setup connected clock.entered with
  | some => simp [writeChannel, refusal]
  | none =>
      have queries : ((radio.write setup write idx name secret).answers setup faults).query =
          faults.query := rfl
      simp only [writeChannel, refusal, refreshLocked_force, queries]
      cases query : queryDevice setup faults.query with
      | none => simp [judge]
      | some device =>
          have found : ((sweepChannels setup ((radio.write setup write idx name secret).answers
              setup faults).channel device.maxChannels).find? fun channel =>
                decide (channel.idx = idx)).map Channel.name =
              readBack setup faults idx (radio.write setup write idx name secret) device := by
            rw [Radio.find_swept, readBack]
            split
            · rw [Option.map_map]
              rfl
            · rfl
          simp only [judge, find, cached, Option.getD_some, found, Bool.true_eq_false, if_false,
            true_and, Option.some.injEq, exists_eq_left']
          split <;> simp_all

theorem writeChannel_of_refuses {refusal : RadioWriteError}
    (refused : s.refuses setup connected clock.entered = some refusal) :
    s.writeChannel setup connected clock write faults idx name secret expectName radio =
      (.error refusal, s, radio) := by
  rw [writeChannel, refused]

/-- A write that is not refused leaves this cache and these slots. -/
theorem writeChannel_of_passes (passed : s.refuses setup connected clock.entered = none) :
    (s.writeChannel setup connected clock write faults idx name secret expectName radio).2 =
      (({ s with lastWriteAt := some clock.entered }.refreshLocked setup true clock
        ((radio.write setup write idx name secret).answers setup faults)).2,
        radio.write setup write idx name secret) := by
  rw [writeChannel, passed]

theorem readBack_eq_some {device : DeviceInfo} :
    readBack setup faults idx radio device = some name ↔
      covers setup faults idx device = true ∧ name ≠ [] ∧
        ∃ key, radio.slot idx = some ⟨name, key⟩ := by
  unfold readBack
  constructor
  · intro found
    split at found
    · next reads =>
        obtain ⟨covered, named⟩ := Bool.and_eq_true_iff.mp reads
        obtain ⟨slot, there, nonempty⟩ := Radio.named_eq_true.mp named
        rw [there, Option.map_some, Option.some.injEq] at found
        subst found
        exact ⟨covered, nonempty, slot.key, there⟩
    · cases found
  · rintro ⟨covered, nonempty, key, there⟩
    have named : radio.named idx = true := Radio.named_eq_true.mpr ⟨_, there, nonempty⟩
    rw [covered, named, there]
    rfl

theorem readBack_eq_none {device : DeviceInfo} :
    readBack setup faults idx radio device = none ↔
      covers setup faults idx device = false ∨ radio.named idx = false := by
  unfold readBack
  split
  · next reads =>
      obtain ⟨covered, named⟩ := Bool.and_eq_true_iff.mp reads
      obtain ⟨slot, there, -⟩ := Radio.named_eq_true.mp named
      simp [covered, named, there]
  · next unread => simpa [← Bool.not_eq_true, imp_iff_not_or] using unread

/-! ## What is reported -/

/-- If `set_channel` returns normally, the slot holds the name and the key. -/
def SetsTruly (setup : RadioSetup) (connected : Bool) (clock : Readings) (write : WriteAnswer)
    (faults : Faults) (idx : Int) (name : Str) (secret : Option Key) (s : RadioState)
    (radio : Radio) : Prop :=
  ∀ channel, (s.setChannel setup connected clock write faults idx name secret radio).1 =
      .ok channel →
    (s.setChannel setup connected clock write faults idx name secret radio).2.2.slot idx =
      some ⟨name, Radio.writtenKey setup name secret⟩

/-- If `clear_channel` returns normally, the slot holds no channel with a name. -/
def ClearsTruly (setup : RadioSetup) (connected : Bool) (clock : Readings) (write : WriteAnswer)
    (faults : Faults) (idx : Int) (random : Key) (s : RadioState) (radio : Radio) : Prop :=
  ∀ channel, (s.clearChannel setup connected clock write faults idx random radio).1 =
      .ok channel →
    (s.clearChannel setup connected clock write faults idx random radio).2.2.named idx = false

/-- The slot has the name already, and another key. -/
def holdsNamesake (setup : RadioSetup) (idx : Int) (name : Str) (secret : Option Key)
    (radio : Radio) : Prop :=
  name ≠ [] ∧ ∃ key, radio.slot idx = some ⟨name, key⟩ ∧ key ≠ Radio.writtenKey setup name secret

/-- The device answers the read-back, which reads the slot or does not. -/
def readsBack (setup : RadioSetup) (faults : Faults) (idx : Int) (read : Bool) : Prop :=
  ∃ device, queryDevice setup faults.query = some device ∧ covers setup faults idx device = read

theorem setsTruly_iff :
    s.SetsTruly setup connected clock write faults idx name secret radio ↔
      ¬ (s.refuses setup connected clock.entered = none ∧ write.lands = false ∧
        holdsNamesake setup idx name secret radio ∧ readsBack setup faults idx true) := by
  constructor
  · rintro truly ⟨passed, stays, ⟨nonempty, key, there, other⟩, device, answered, covered⟩
    have same : radio.write setup write idx name secret = radio := by
      rw [Radio.write, stays]
      rfl
    obtain ⟨channel, returned⟩ := writeChannel_ok.mpr ⟨passed, device, answered,
      readBack_eq_some.mpr ⟨covered, nonempty, key, same.symm ▸ there⟩⟩
    have after := truly channel returned
    rw [setChannel, writeChannel_of_passes passed, same, there, Option.some.injEq,
      Slot.mk.injEq] at after
    exact other after.2
  · intro other channel returned
    obtain ⟨passed, device, answered, found⟩ := writeChannel_ok.mp ⟨channel, returned⟩
    obtain ⟨covered, nonempty, key, there⟩ := readBack_eq_some.mp found
    rw [setChannel, writeChannel_of_passes passed, there]
    unfold Radio.write at there
    split at there
    · next lands =>
        -- what was written is what is read back, under the requested name
        rw [Radio.slot_assign] at there
        obtain ⟨-, -, slot⟩ := Option.map_eq_some_iff.mp there
        rw [Slot.mk.injEq] at slot
        rw [slot.2]
    · next stays =>
        by_contra wrong
        exact other ⟨passed, Bool.eq_false_of_not_eq_true stays, ⟨nonempty, key, there,
          fun same => wrong (by rw [same])⟩, device, answered, covered⟩

theorem clearsTruly_iff {random : Key} :
    s.ClearsTruly setup connected clock write faults idx random radio ↔
      ¬ (s.refuses setup connected clock.entered = none ∧ write.lands = false ∧
        radio.named idx = true ∧ readsBack setup faults idx false) := by
  constructor
  · rintro truly ⟨passed, stays, named, device, answered, uncovered⟩
    have same : radio.write setup write idx [] (some random) = radio := by
      rw [Radio.write, stays]
      rfl
    obtain ⟨channel, returned⟩ := writeChannel_ok.mpr ⟨passed, device, answered,
      readBack_eq_none.mpr (.inl uncovered)⟩
    have after := truly channel returned
    rw [clearChannel, writeChannel_of_passes passed, same, named] at after
    cases after
  · intro other channel returned
    obtain ⟨passed, device, answered, found⟩ := writeChannel_ok.mp ⟨channel, returned⟩
    rw [clearChannel, writeChannel_of_passes passed]
    rcases readBack_eq_none.mp found with uncovered | unnamed
    · unfold Radio.write
      split
      · next lands =>
          have blank : setup.keeps [] = [] := setup.keeps_short [] (by simp)
          rw [Radio.named, Radio.slot_assign, blank]
          cases radio.slot idx <;> rfl
      · next stays =>
          by_contra named
          exact other ⟨passed, Bool.eq_false_of_not_eq_true stays,
            Bool.eq_true_of_not_eq_false named, device, answered, uncovered⟩
    · exact unnamed

/-- A normal return of `set_channel` or `clear_channel` is true, but for a write that was not
refused, that the device did not take, and that the read-back cannot tell from one it took:
because the slot has the requested name already and is read, or because it is not read. -/
theorem writes_reported_iff {random : Key} :
    (s.SetsTruly setup connected clock write faults idx name secret radio ↔
      ¬ (s.refuses setup connected clock.entered = none ∧ write.lands = false ∧
        holdsNamesake setup idx name secret radio ∧ readsBack setup faults idx true)) ∧
    (s.ClearsTruly setup connected clock write faults idx random radio ↔
      ¬ (s.refuses setup connected clock.entered = none ∧ write.lands = false ∧
        radio.named idx = true ∧ readsBack setup faults idx false)) :=
  ⟨setsTruly_iff, clearsTruly_iff⟩

/-- The device rejects a new key for a channel, and the write passes, as the name is the same.
It rejects clearing the channel, and that passes when the read of the slot raises. -/
theorem rejected_writes_pass :
    (∃ channel, (init.setChannel plainRadio true ⟨0, 1, 0⟩ .rejects (faultless 8) 0
        "london".toList (some (.replicate 16 1)) [⟨"london".toList, .replicate 16 2⟩]).1 =
          .ok channel) ∧
      ¬ init.SetsTruly plainRadio true ⟨0, 1, 0⟩ .rejects (faultless 8) 0
        "london".toList (some (.replicate 16 1)) [⟨"london".toList, .replicate 16 2⟩] ∧
      ¬ init.ClearsTruly plainRadio true ⟨0, 1, 0⟩ .rejects
        { faultless 8 with channel := fun _ => some .raises } 0
        (.replicate 16 3) [⟨"london".toList, .replicate 16 2⟩] := by
  refine ⟨⟨some ⟨0, "london".toList, some []⟩, by decide +kernel⟩, fun truly => ?_, fun truly => ?_⟩
  · exact absurd (truly (some ⟨0, "london".toList, some []⟩) (by decide +kernel))
      (by decide +kernel)
  · exact absurd (truly none (by decide +kernel)) (by decide +kernel)

end RadioState

end Zorkbot.Admin
