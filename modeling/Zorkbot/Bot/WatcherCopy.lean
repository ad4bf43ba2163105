/-
# What watchers get of a command

A watcher's copy of an answer starts with the command, and so it has less room than the
player's. When name, command and title leave none, `packetize` raises: the player has the
answer by then, and no watcher gets it.
-/

import Zorkbot.Bot.PacketWords
import Zorkbot.Bot.Tasks

namespace Zorkbot.Bot

/-! ## The handler with its packetizer -/

/-- The setup of a bot with this `packet_max_chars`. -/
def Setup.onRadio (maxChars : Int) (setup : Setup) : Setup :=
  { setup with packetize := fun output firstLine =>
      (Bot.packetize output maxChars none firstLine true).toOption }

/-- The `first_line` of a watcher's copy. -/
def echoLine (playerName command : Str) : Str :=
  "[".toList ++ playerName ++ "] > ".toList ++ command

/-- The room that the title takes, with the line feed after it. -/
def titleRoom (output : Str) : Nat :=
  match truthy (prepareText output).1 with
  | none => 0
  | some title => title.length + 1

/-- The player's own `packetize` call returns its packets. -/
def OwnRoom (maxChars : Int) (output : Str) : Prop :=
  (prepareText output).2 = [] ∨ ((titleRoom output : Nat) : Int) < maxChars

/-- In the copy there is a character left for the body, if there is one. -/
def CopyRoom (maxChars : Int) (playerName command output : Str) : Prop :=
  (prepareText output).2 = [] ∨
    ((playerName.length + command.length + titleRoom output + 6 : Nat) : Int) < maxChars

instance (maxChars : Int) (output : Str) : Decidable (OwnRoom maxChars output) := by
  unfold OwnRoom
  infer_instance

instance (maxChars : Int) (playerName command output : Str) :
    Decidable (CopyRoom maxChars playerName command output) := by
  unfold CopyRoom
  infer_instance

/-- A text with a body is packed unless the lead takes all the room. -/
theorem packetize_isSome_iff {text : Str} (some : (prepareText text).2 ≠ []) (maxChars : Int)
    (firstLine : Option Str) :
    (packetize text maxChars none firstLine true).toOption.isSome ↔
      ((leadOf text firstLine).length : Int) < maxChars := by
  by_cases pos : 0 < maxChars - ([] : Str).length - (leadOf text firstLine).length
  · obtain ⟨chunks, packs, -⟩ : ∃ chunks, _ ∧ Packed (prepareText text).2 _ true chunks :=
      packWithSequenceBudget_spec pos true
    rw [packetize_of_body some]
    change (((packWithSequenceBudget (prepareText text).2
      (maxChars - ([] : Str).length - (leadOf text firstLine).length) true).map _).toOption.isSome
        = true) ↔ _
    rw [packs]
    refine iff_of_true rfl ?_
    rw [List.length_nil] at pos
    omega
  · rw [packetize_error some maxChars none firstLine true (not_lt.mp pos)]
    refine iff_of_false nofun ?_
    rw [List.length_nil] at pos
    omega

/-- How long the lead of a copy with a body is. -/
theorem length_leadOf_echo {output : Str} (some : (prepareText output).2 ≠ [])
    (playerName command : Str) :
    (leadOf output (.some (echoLine playerName command))).length =
      playerName.length + command.length + titleRoom output + 6 := by
  have echo : truthy (.some (echoLine playerName command)) =
      .some (echoLine playerName command) := rfl
  have length : (echoLine playerName command).length = playerName.length + command.length + 5 := by
    simp only [echoLine, List.length_append, String.length_toList]
    have open_ : "[".length = 1 := rfl
    have close : "] > ".length = 4 := rfl
    omega
  have lead : ∀ rest, joinLines (echoLine playerName command :: rest) ≠ [] := fun rest none => by
    have := congrArg List.length none
    rw [joinLines, length_intercalate, Packing.width, List.map_cons, List.sum_cons, length] at this
    rw [List.length_nil] at this
    omega
  rw [leadOf, List.filterMap_cons, echo]
  dsimp only
  rw [if_neg (not_or.mpr ⟨lead _, some⟩), List.length_append, List.length_singleton, joinLines,
    length_intercalate]
  cases title : truthy (prepareText output).1 with
  | none =>
      rw [List.filterMap_cons, title, titleRoom, title]
      simp [length]
  | some title' =>
      rw [List.filterMap_cons, title, titleRoom, title]
      simp only [List.filterMap_nil, Packing.width, List.map_cons, List.map_nil, List.sum_cons,
        List.sum_nil, length, List.length_cons, List.length_nil]
      omega

/-- How long the lead of the player's own packets is, if there is a body. -/
theorem length_leadOf_none {output : Str} (some : (prepareText output).2 ≠ []) :
    (leadOf output none).length = titleRoom output := by
  have shown : [none, (prepareText output).1].filterMap truthy =
      (truthy (prepareText output).1).toList := by
    rw [List.filterMap_cons, List.filterMap_cons, List.filterMap_nil]
    cases truthy (prepareText output).1 <;> rfl
  rw [leadOf, shown, titleRoom]
  cases title : truthy (prepareText output).1 with
  | none => simp [joinLines, List.intercalate]
  | some title' =>
      have long : title' ≠ [] := by
        rintro rfl
        cases first : (prepareText output).1 with
        | none =>
            rw [first] at title
            cases title
        | some text =>
            rw [first] at title
            cases text <;> cases title
      simp [joinLines, List.intercalate, long, some]

/-- The player's own packets are made unless the title alone takes all the room. -/
theorem ownPackets_isSome_iff (setup : Setup) (maxChars : Int) (output : Str) :
    ((setup.onRadio maxChars).packetize output none).isSome ↔ OwnRoom maxChars output := by
  change (packetize output maxChars none none true).toOption.isSome ↔ _
  by_cases body : (prepareText output).2 = []
  · rw [packetize_of_no_body body]
    exact iff_of_true rfl (.inl body)
  · rw [packetize_isSome_iff body, length_leadOf_none body, OwnRoom]
    exact (or_iff_right body).symm

theorem watcherPackets_isSome_iff (setup : Setup) (maxChars : Int) (s : SessionState) (r : Nat)
    (command output : Str) :
    (watcherPackets (setup.onRadio maxChars) s r command output).isSome ↔
      CopyRoom maxChars (s.record r).playerName command output := by
  change (packetize output maxChars none
    (some (echoLine (s.record r).playerName command)) true).toOption.isSome ↔ _
  by_cases body : (prepareText output).2 = []
  · rw [packetize_of_no_body body]
    exact iff_of_true rfl (.inl body)
  · rw [packetize_isSome_iff body, length_leadOf_echo body, CopyRoom]
    exact (or_iff_right body).symm

/-- Once the player's own packets are made, the watchers' copy is made and its fan-out queued
exactly when the copy has room too, or there was none for the player's own packets either. -/
theorem copy_queued_iff (setup : Setup) (maxChars : Int) (s : SessionState) (r : Nat)
    (command output : Str) :
    ((((setup.onRadio maxChars).packetize output none).isSome →
        (watcherPackets (setup.onRadio maxChars) s r command output).isSome) ↔
      CopyRoom maxChars (s.record r).playerName command output ∨ ¬ OwnRoom maxChars output) ∧
    ((s.record r).watchers ≠ ∅ →
      ((((setup.onRadio maxChars).packetize output none).isSome →
          ∃ copy, (handOver (setup.onRadio maxChars) s r command output).fanout =
            [((s.record r).num, .output r copy)]) ↔
        CopyRoom maxChars (s.record r).playerName command output ∨
          ¬ OwnRoom maxChars output)) := by
  have own := ownPackets_isSome_iff setup maxChars output
  have made := watcherPackets_isSome_iff setup maxChars s r command output
  have split : ∀ {copied : Prop},
      (copied ↔ CopyRoom maxChars (s.record r).playerName command output) →
      ((((setup.onRadio maxChars).packetize output none).isSome → copied) ↔
        CopyRoom maxChars (s.record r).playerName command output ∨
          ¬ OwnRoom maxChars output) := fun same => by
    rw [own, same, imp_iff_or_not]
  refine ⟨split made, fun watched => split ?_⟩
  rw [← made, handOver, if_neg watched]
  cases watcherPackets (setup.onRadio maxChars) s r command output with
  | none => exact iff_of_false (fun ⟨_, queued⟩ => absurd queued nofun) nofun
  | some copy => exact iff_of_true ⟨copy, rfl⟩ rfl

/-- Alice's session, watched by Bob. -/
def watchedState : SessionState :=
  { SessionState.init with records := [⟨1, ZorkBot.alice, "Alice".toList, {ZorkBot.bob}⟩] }

theorem copy_queued_iff_north :
    (((ZorkBot.small 2).onRadio 120).packetize "Forest\nIt is dark.".toList none).isSome ∧
    ∃ copy, (handOver ((ZorkBot.small 2).onRadio 120) watchedState 0 "north".toList
      "Forest\nIt is dark.".toList).fanout = [(1, .output 0 copy)] := by
  have own : (((ZorkBot.small 2).onRadio 120).packetize "Forest\nIt is dark.".toList none).isSome :=
    by decide +kernel
  exact ⟨own, ((copy_queued_iff (ZorkBot.small 2) 120 watchedState 0 "north".toList
    "Forest\nIt is dark.".toList).2 (by decide)).mpr (.inl (by decide +kernel)) own⟩

/-- A room, and a player and a command with the longest texts there are: the player's packets
are made and the watchers' are not. -/
theorem copy_raises : (List.replicate 31 'a').length ≤ 31 ∧
    validate (fun _ _ => false) (List.replicate 80 'n') false = true ∧
    packetize "West of House\nYou are here.".toList 120 none none true =
      .ok ["West of House\nYou are here.".toList] ∧
    packetize "West of House\nYou are here.".toList 120 none
      (some (echoLine (List.replicate 31 'a') (List.replicate 80 'n'))) true = .error .value := by
  decide +kernel

end Zorkbot.Bot
