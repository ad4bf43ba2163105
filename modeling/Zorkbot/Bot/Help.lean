/-
# The help

The help is packed by whole lines, and its packets are numbered. Its first packet is grouped by
hand: it has its length whatever the limit is. The rest of the help fits every limit with room
for its longest line and a number.
-/

import Zorkbot.Bot.PacketBudget

namespace Zorkbot.Bot

open Packing (greedy fill width)

/-! ## The lines -/

/-- `_HELP_LINES_1`. -/
def helpLines1 : List Str :=
  ["!start - begin/resume game", "!end - save & quit", "!list - active sessions",
    "!watch <N> - observe session"].map String.toList

/-- `_HELP_PACKET_1`. -/
def helpPacket1 : Str := joinLines helpLines1

/-- `_CHANNEL_HELP_LINES_2`. -/
def channelHelpLines2 : List Str :=
  ["!watchers - list all observers", "!author - bot info & source",
    "!uptime - bot uptime"].map String.toList

/-- `channel_help_packets`. -/
def channelHelpPackets (maxChars : Int) : List Str :=
  addSequencePrefixes (helpPacket1 :: packLines channelHelpLines2 maxChars)

/-- `_dm_help_lines_2`. -/
def dmHelpLines2 (channelName : Str) (inSession : Bool) : List Str :=
  ["!watchers - list all observers".toList, "!reset - wipe save & restart".toList] ++
    (if inSession then ["!rules - basic rules".toList] else []) ++
    ["Join ".toList ++ channelName ++ " and send !help for more info".toList]

/-- `dm_help_packets`. -/
def dmHelpPackets (channelName : Str) (inSession : Bool) (maxChars : Int) : List Str :=
  addSequencePrefixes (helpPacket1 :: packLines (dmHelpLines2 channelName inSession) maxChars)

/-! ## Packing lines -/

theorem packLinesLoop_eq (budget : Int) (packets lines : List Str) {current : List Str}
    (some : current ≠ []) :
    packLinesLoop budget packets current lines =
      packets ++ (fill List.length budget.toNat current lines).map joinLines := by
  induction lines generalizing packets current with
  | nil => rw [packLinesLoop, if_neg some, fill, List.map_singleton]
  | cons line lines ih =>
      have filled : current ++ [line] ≠ [] := by simp
      have wide : width List.length (current ++ [line]) = _ :=
        Packing.width_append_singleton some line
      have length := length_intercalate '\n' (current ++ [line])
      rw [packLinesLoop, fill]
      by_cases room : width List.length (current ++ [line]) ≤ budget.toNat
      · have stays : ¬(current ≠ [] ∧
            ((joinLines (current ++ [line])).length : Int) > budget) := by
          rintro ⟨-, exceeds⟩
          rw [joinLines] at exceeds
          omega
        rw [if_neg stays, if_pos room, ih packets filled]
      · have breaks : current ≠ [] ∧ ((joinLines (current ++ [line])).length : Int) > budget := by
          refine ⟨some, ?_⟩
          rw [joinLines]
          omega
        rw [if_pos breaks, if_neg room, ih _ (List.cons_ne_nil line []), List.map_cons,
          List.append_assoc, List.singleton_append]

theorem packLines_eq (lines : List Str) (maxChars : Int) :
    packLines lines maxChars =
      (greedy List.length (maxChars - sequencePrefixLen 99).toNat lines).map joinLines := by
  rw [packLines]
  cases lines with
  | nil => rfl
  | cons line lines =>
      rw [packLinesLoop, if_neg fun wrong => wrong.1 rfl, List.nil_append,
        packLinesLoop_eq _ _ _ (List.cons_ne_nil line []), List.nil_append, greedy]

/-! ## The packets -/

/-- The lines are on the packets in order, each whole and once, the packets are numbered if
there are several, and they are within the limit. -/
structure Paged (lines : List Str) (maxChars : Int) (packets : List Str) : Prop where
  whole : ∃ groups : List (List Str), groups.flatten = lines ∧ [] ∉ groups ∧
    packets = groups.mapIdx fun index group =>
      (if 1 < groups.length then marker (index + 1) groups.length else []) ++ joinLines group
  fit : ∀ packet ∈ packets, (packet.length : Int) ≤ maxChars

theorem addSequencePrefixes_map (groups : List (List Str)) :
    addSequencePrefixes (groups.map joinLines) = groups.mapIdx fun index group =>
      (if 1 < groups.length then marker (index + 1) groups.length else []) ++ joinLines group := by
  rw [addSequencePrefixes, List.length_map]
  dsimp only
  split
  · next one =>
      refine List.ext_getElem (by simp) fun i before _ => ?_
      rw [List.getElem_map, List.getElem_mapIdx, if_neg (not_lt.mpr one), List.nil_append]
  · next several =>
      refine List.ext_getElem (by simp) fun i before _ => ?_
      simp only [List.getElem_map, List.getElem_zipIdx, List.getElem_mapIdx, Nat.add_comm 1 i]
      rw [if_pos (not_le.mp several)]

theorem length_str_digit : ∀ n < 10, (str (n : Nat)).length = 1 := by decide

/-- Up to nine packets, a number takes six characters. -/
theorem length_marker_digit {index total : Nat} (le : index ≤ total) (digit : total < 10) :
    (marker index total).length = 6 := by
  rw [length_marker, length_str_digit _ digit, length_str_digit _ (by omega)]

/-- A packed group is one line or within the budget. -/
theorem length_group_le {lines group : List Str} {maxChars : Int}
    (room : ∀ line ∈ lines, (line.length : Int) + 8 ≤ maxChars)
    (there : group ∈ greedy List.length (maxChars - sequencePrefixLen 99).toNat lines) :
    ((joinLines group).length : Int) + 8 ≤ maxChars := by
  have fits := Packing.fits_greedy _ _ group there
  have listed : ∀ line ∈ group, line ∈ lines := fun line among => by
    have whole := List.mem_flatten.mpr ⟨group, there, among⟩
    rwa [Packing.flatten_greedy] at whole
  obtain ⟨line, among⟩ := List.exists_mem_of_ne_nil _ fits.some
  rcases fits.short with one | narrow
  · obtain ⟨line, rfl⟩ := List.length_eq_one_iff.mp one
    rw [joinLines, List.intercalate_singleton]
    exact room line (listed line (List.mem_singleton_self line))
  · have reserve : sequencePrefixLen 99 = 8 := by decide
    have first := room line (listed line among)
    rw [joinLines, length_intercalate]
    omega

/-- The packet that is grouped by hand has its length whatever the limit is; the others fit. -/
theorem paged_help_iff {lines : List Str} (some : lines ≠ []) (few : lines.length ≤ 8)
    {maxChars : Int} (room : ∀ line ∈ lines, (line.length : Int) + 8 ≤ maxChars) :
    Paged (helpLines1 ++ lines) maxChars
      (addSequencePrefixes (helpPacket1 :: packLines lines maxChars)) ↔ 104 ≤ maxChars := by
  have grouped : helpPacket1 :: packLines lines maxChars =
      (helpLines1 :: greedy List.length (maxChars - sequencePrefixLen 99).toNat lines).map
        joinLines := by
    rw [packLines_eq]
    rfl
  have short : ∀ group ∈ greedy List.length (maxChars - sequencePrefixLen 99).toNat lines,
      ((joinLines group).length : Int) + 8 ≤ maxChars := fun _ there => length_group_le room there
  have flat : (greedy List.length (maxChars - sequencePrefixLen 99).toNat lines).flatten = lines :=
    Packing.flatten_greedy ..
  have count : (greedy List.length (maxChars - sequencePrefixLen 99).toNat lines).length ≤
      lines.length := Packing.length_greedy_le_length ..
  have filled : ∀ group ∈ greedy List.length (maxChars - sequencePrefixLen 99).toNat lines,
      group ≠ [] := fun group there => (Packing.fits_greedy _ _ group there).some
  rw [grouped, addSequencePrefixes_map]
  generalize greedy List.length (maxChars - sequencePrefixLen 99).toNat lines = rest at *
  have several : 1 < (helpLines1 :: rest).length := by
    have := List.length_pos_iff.mpr fun none : rest = [] => some (by rw [← flat, none]; rfl)
    rw [List.length_cons]
    omega
  have digit : (helpLines1 :: rest).length < 10 := by
    rw [List.length_cons]
    omega
  have number : ∀ index, index < (helpLines1 :: rest).length →
      (marker (index + 1) (helpLines1 :: rest).length).length = 6 :=
    fun index before => length_marker_digit before digit
  have first : (joinLines helpLines1).length = 98 := by decide
  simp only [if_pos several]
  constructor
  · intro paged
    have whole := paged.fit _ (List.mem_mapIdx.mpr ⟨0, Nat.zero_lt_of_lt several, rfl⟩)
    rw [List.length_append, number 0 (Nat.zero_lt_of_lt several), List.getElem_cons_zero, first]
      at whole
    exact whole
  · intro enough
    refine ⟨⟨helpLines1 :: rest, ?_, ?_, by simp only [if_pos several]⟩, fun packet there => ?_⟩
    · rw [List.flatten_cons, flat]
    · rw [List.mem_cons]
      rintro (wrong | there)
      · exact absurd wrong (by decide)
      · exact filled _ there rfl
    · obtain ⟨index, before, rfl⟩ := List.mem_mapIdx.mp there
      have group : ((joinLines (helpLines1 :: rest)[index]).length : Int) + 6 ≤ maxChars := by
        rcases List.mem_cons.mp (List.getElem_mem before) with is | among
        · rw [is, first]
          exact enough
        · have := short _ among
          omega
      rw [List.length_append, number index before]
      omega

/-- The help fits the limit from 104 characters on; below that its first packet does not. -/
theorem help_fits_iff (channelName : Str) (inSession : Bool) (maxChars : Int) :
    ((∀ line ∈ helpLines1 ++ dmHelpLines2 channelName inSession,
        8 + (line.length : Int) ≤ maxChars) →
      (Paged (helpLines1 ++ dmHelpLines2 channelName inSession) maxChars
        (dmHelpPackets channelName inSession maxChars) ↔ 104 ≤ maxChars)) ∧
    ((∀ line ∈ helpLines1 ++ channelHelpLines2, 8 + (line.length : Int) ≤ maxChars) →
      (Paged (helpLines1 ++ channelHelpLines2) maxChars (channelHelpPackets maxChars) ↔
        104 ≤ maxChars)) := by
  constructor
  · intro room
    refine paged_help_iff (List.append_ne_nil_of_right_ne_nil _ (List.cons_ne_nil _ _)) ?_
      fun line there => ?_
    · cases inSession with
      | false => exact (by decide : 3 ≤ 8)
      | true => exact (by decide : 4 ≤ 8)
    · have := room line (List.mem_append_right _ there)
      omega
  · intro room
    refine paged_help_iff (by decide) (by decide) fun line there => ?_
    have := room line (List.mem_append_right _ there)
    omega

theorem help_fits_iff_zork : Paged (helpLines1 ++ dmHelpLines2 "#zork".toList false) 120
    (dmHelpPackets "#zork".toList false 120) ↔ (104 : Int) ≤ 120 :=
  (help_fits_iff "#zork".toList false 120).1 (by decide)

/-- Forty characters are enough for each line and a number, but not for the first packet. -/
theorem help_exceeds_limit : (∀ line ∈ helpLines1 ++ channelHelpLines2, 8 + (line.length : Int) ≤ 40) ∧
    ¬Paged (helpLines1 ++ channelHelpLines2) 40 (channelHelpPackets 40) := by
  refine ⟨by decide, fun paged => ?_⟩
  exact absurd paged.fit (by decide)

end Zorkbot.Bot
