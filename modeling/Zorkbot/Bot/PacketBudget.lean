/-
# The room for a packet's number

The numbers on packets take room, how much depends on how many packets there are, and that
depends on the room left. The packer fills lines, so more room never makes more packets, and
packing again with the room the last count leaves comes to rest.
-/

import Zorkbot.Bot.Packetize
import Zorkbot.Data.Packing

namespace Zorkbot.Bot

open Packing (greedy fill width)

/-! ## Packing -/

@[simp] theorem joinWords_singleton (word : Str) : joinWords [word] = word :=
  List.intercalate_singleton

theorem joinWords_cons_cons (word next : Str) (words : List Str) :
    joinWords (word :: next :: words) = word ++ ' ' :: joinWords (next :: words) := by
  rw [joinWords, List.intercalate_cons_cons, List.append_assoc, List.singleton_append, joinWords]

/-- What stands between the pieces is one character. -/
theorem length_intercalate (c : Char) (pieces : List Str) :
    ([c].intercalate pieces).length = width List.length pieces := by
  induction pieces with
  | nil => rfl
  | cons piece pieces ih =>
      cases pieces with
      | nil => simp
      | cons next pieces =>
          rw [List.intercalate_cons_cons, List.length_append, List.length_append, ih]
          simp only [width, List.map_cons, List.sum_cons, List.length_cons, List.length_nil]
          omega

theorem length_joinWords (words : List Str) :
    (joinWords words).length = width List.length words :=
  length_intercalate ' ' words

theorem packLoop_eq {limit : Int} (nonneg : 0 ≤ limit) (chunks words : List Str)
    {current : List Str} (some : current ≠ []) :
    packLoop limit chunks current (width List.length current) words =
      chunks ++ (fill List.length limit.toNat current words).map joinWords := by
  induction words generalizing chunks current with
  | nil => rw [packLoop, if_neg some, fill, List.map_singleton]
  | cons word words ih =>
      have filled : current ++ [word] ≠ [] := by simp
      have wide : width List.length (current ++ [word]) = _ :=
        Packing.width_append_singleton some word
      rw [packLoop, fill]
      simp only [if_neg some]
      by_cases room : width List.length (current ++ [word]) ≤ limit.toNat
      · have stays : ¬(current ≠ [] ∧
            ((width List.length current + (word.length + 1) : Nat) : Int) > limit) := by
          rintro ⟨-, exceeds⟩
          omega
        rw [if_neg stays, if_pos room, ← ih chunks filled, wide]
        rfl
      · have breaks : current ≠ [] ∧
            ((width List.length current + (word.length + 1) : Nat) : Int) > limit :=
          ⟨some, by omega⟩
        have next := ih (chunks ++ [joinWords current]) (List.cons_ne_nil word [])
        rw [Packing.width_singleton] at next
        rw [if_pos breaks, if_neg room, next, List.map_cons, List.append_assoc,
          List.singleton_append]

/-- The packer fills lines. -/
theorem packWords_eq {limit : Int} (nonneg : 0 ≤ limit) (text : Str) :
    packWords text limit = (greedy List.length limit.toNat (splitWords text)).map joinWords := by
  rw [packWords]
  cases splitWords text with
  | nil => rfl
  | cons word words =>
      have first := packLoop_eq nonneg [] words (List.cons_ne_nil word [])
      rw [Packing.width_singleton, List.nil_append] at first
      rw [packLoop, if_neg fun wrong => wrong.1 rfl]
      simp only [if_true, List.nil_append, Nat.zero_add]
      exact first

/-! ## The fewest chunks -/

/-- A way to group words in their order, each group one word or not longer than the limit. -/
structure Grouping (limit : Int) (words : List Str) (groups : List (List Str)) : Prop where
  whole : groups.flatten = words
  short : ∀ group ∈ groups, group.length = 1 ∨ ((joinWords group).length : Int) ≤ limit

theorem grouping_packWords {limit : Int} (nonneg : 0 ≤ limit) (text : Str) :
    Grouping limit (splitWords text) (greedy List.length limit.toNat (splitWords text)) where
  whole := Packing.flatten_greedy limit.toNat (splitWords text)
  short group there := by
    refine (Packing.fits_greedy limit.toNat _ group there).short.imp_right fun fits => ?_
    rw [length_joinWords]
    omega

/-- Groups without words only make a grouping longer. -/
theorem length_packWords_le_grouping {limit : Int} (nonneg : 0 ≤ limit) {text : Str}
    {groups : List (List Str)} (grouping : Grouping limit (splitWords text) groups) :
    (packWords text limit).length ≤ groups.length := by
  have fits : ∀ group ∈ groups.filter (!·.isEmpty), Packing.Fits List.length limit.toNat group := by
    intro group there
    obtain ⟨listed, some⟩ := List.mem_filter.mp there
    refine ⟨by simpa using some, (grouping.short group listed).imp_right fun short => ?_⟩
    rw [length_joinWords] at short
    omega
  have fewest := Packing.length_greedy_le fits
  rw [List.flatten_filter_not_isEmpty, grouping.whole] at fewest
  rw [packWords_eq nonneg, List.length_map]
  exact fewest.trans (List.length_filter_le ..)

/-- The packer keeps the words in their order and the limit, nothing that does so has fewer
chunks, and a larger limit never makes more of them. -/
theorem packing_is_optimal (text : Str) (limit : Int) (pos : 1 ≤ limit) :
    (∃ groups, packWords text limit = groups.map joinWords ∧ (∀ group ∈ groups, group ≠ []) ∧
      Grouping limit (splitWords text) groups) ∧
    (∀ groups, Grouping limit (splitWords text) groups →
      (packWords text limit).length ≤ groups.length) ∧
    ∀ larger, limit ≤ larger → (packWords text larger).length ≤ (packWords text limit).length := by
  have nonneg : 0 ≤ limit := by omega
  refine ⟨?_, fun groups => length_packWords_le_grouping nonneg, fun larger le => ?_⟩
  · refine ⟨_, packWords_eq nonneg text, fun group there => ?_, grouping_packWords nonneg text⟩
    exact (Packing.fits_greedy limit.toNat _ group there).some
  · have grouping := grouping_packWords nonneg text
    have wider : Grouping larger (splitWords text) _ :=
      ⟨grouping.whole, fun group there => (grouping.short group there).imp_right (·.trans le)⟩
    have fewer := length_packWords_le_grouping (nonneg.trans le) wider
    rwa [packWords_eq nonneg, List.length_map]

/-- Three words, the second longer than the limit. -/
theorem packing_is_optimal_three :
    (packWords "go northward now".toList 20).length ≤
      (packWords "go northward now".toList 6).length :=
  (packing_is_optimal "go northward now".toList 6 (by decide)).2.2 20 (by decide)

/-! ## Numbers -/

theorem str_ofNat (n : Nat) : str n = Nat.toDigits 10 n := by
  rw [str, Int.toString_eq_repr, Int.repr_eq_if, if_pos (Int.natCast_nonneg n), Int.toNat_natCast,
    Nat.toList_repr]

theorem length_str_mono {m n : Nat} (le : m ≤ n) : (str m).length ≤ (str n).length := by
  rw [str_ofNat, str_ofNat, Nat.length_toDigits_le_iff (by decide) Nat.length_toDigits_pos]
  exact Nat.lt_of_le_of_lt le
    ((Nat.length_toDigits_le_iff (by decide) Nat.length_toDigits_pos).mp le_rfl)

theorem length_marker (index total : Nat) :
    (marker index total).length = (str index).length + (str total).length + 4 := by
  simp only [marker, List.length_append, List.length_cons, List.length_nil]
  omega

/-- The reserve is enough for each number. -/
theorem length_marker_le {index total : Nat} (le : index ≤ total) :
    (marker index total).length ≤ sequencePrefixLen total := by
  have := length_str_mono le
  rw [sequencePrefixLen, length_marker, length_marker]
  omega

theorem sequencePrefixLen_mono : Monotone sequencePrefixLen := by
  intro m n le
  have := length_str_mono le
  rw [sequencePrefixLen, sequencePrefixLen, length_marker, length_marker]
  omega

/-! ## Packing again -/

variable (text : Str) (limit : Int)

/-- How many chunks there are when room is kept for the number of so many. -/
def chunkCount (total : Nat) : Nat :=
  (packWords text (max 1 (limit - sequencePrefixLen total))).length

theorem one_le_room (reserve : Nat) : 0 ≤ max 1 (limit - reserve) :=
  Int.le_trans (by decide) (Int.le_max_left 1 _)

theorem chunkCount_mono : Monotone (chunkCount text limit) := by
  intro m n le
  have longer := sequencePrefixLen_mono le
  rw [chunkCount, chunkCount, packWords_eq (one_le_room limit _),
    packWords_eq (one_le_room limit _), List.length_map, List.length_map]
  exact Packing.length_greedy_antitone (by omega) _

theorem length_packWords_le {room : Int} (nonneg : 0 ≤ room) :
    (packWords text room).length ≤ (splitWords text).length := by
  rw [packWords_eq nonneg, List.length_map]
  exact Packing.length_greedy_le_length ..

/-- The chunks are packed with the room that their own number takes. -/
def Settled (chunks : List Str) : Prop :=
  chunks = packWords text (max 1 (limit - sequencePrefixLen chunks.length))

variable {text limit}

theorem repack_of_rests {k rounds : Nat} {chunks : List Str}
    (rests : chunkCount text limit ((chunkCount text limit)^[k] chunks.length) =
      (chunkCount text limit)^[k] chunks.length) (few : k < rounds) :
    ∃ final, repack text limit rounds chunks = some final ∧ Settled text limit final := by
  induction k generalizing rounds chunks with
  | zero =>
      obtain ⟨rounds, rfl⟩ := Nat.exists_eq_succ_of_ne_zero (Nat.ne_zero_of_lt few)
      refine ⟨_, if_pos rests, ?_⟩
      rw [Settled]
      exact congrArg (fun n => packWords text (max 1 (limit - sequencePrefixLen n))) rests.symm
  | succ k ih =>
      obtain ⟨rounds, rfl⟩ := Nat.exists_eq_succ_of_ne_zero (Nat.ne_zero_of_lt few)
      rw [repack]
      split
      · next same =>
          refine ⟨_, rfl, ?_⟩
          rw [Settled, same]
      · exact ih rests (Nat.lt_of_succ_lt_succ few)

/-- The loop ends: it does not go more rounds than there are words, and one. -/
theorem repack_settles {chunks : List Str} (start : chunks.length ≤ (splitWords text).length)
    {rounds : Nat} (enough : (splitWords text).length < rounds) :
    ∃ final, repack text limit rounds chunks = some final ∧ Settled text limit final := by
  obtain ⟨k, few, rests⟩ := Packing.settles (chunkCount_mono text limit)
    (fun n => length_packWords_le text (one_le_room limit _)) start
  exact repack_of_rests rests (Nat.lt_of_le_of_lt few enough)

/-- What is returned. -/
inductive Packed (text : Str) (limit : Int) : Bool → List Str → Prop
  | plain : Packed text limit false (packWords text limit)
  | single {chunks : List Str} :
      chunks = packWords text (max 1 (limit - sequencePrefixLen 99)) → chunks.length ≤ 1 →
      Packed text limit true chunks
  | settled {chunks : List Str} : Settled text limit chunks → Packed text limit true chunks

/-- With any room at all the words are packed. -/
theorem packWithSequenceBudget_spec (pos : 0 < limit) (numbered : Bool) :
    ∃ chunks, packWithSequenceBudget text limit numbered = .ok chunks ∧
      Packed text limit numbered chunks := by
  rw [packWithSequenceBudget, if_neg (not_le.mpr pos)]
  cases numbered with
  | false =>
      refine ⟨_, if_pos (.inl rfl), ?_⟩
      have room : max 1 (limit - (0 : Nat)) = limit := by omega
      simp only [Bool.false_eq_true, if_false, room]
      exact .plain
  | true =>
      simp only [if_true, Bool.true_eq_false, false_or]
      split
      · next few => exact ⟨_, rfl, .single rfl few⟩
      · obtain ⟨final, ends, settled⟩ : ∃ final, _ ∧ Settled text limit final := repack_settles
          (length_packWords_le text (one_le_room limit (sequencePrefixLen 99)))
          (Nat.lt_succ_self _)
        rw [ends]
        exact ⟨final, rfl, .settled settled⟩

/-- For every text the loop ends, after no more rounds than there are words and one, and chunks
that are numbered are packed with the room that their number leaves. -/
theorem packing_settles (text : Str) (limit : Int) (pos : 0 < limit) :
    (∀ rounds, (splitWords text).length < rounds → ∃ final,
      repack text limit rounds (packWords text (max 1 (limit - sequencePrefixLen 99))) =
        some final) ∧
    ∀ numbered, ∃ chunks, packWithSequenceBudget text limit numbered = .ok chunks ∧
      (numbered = true → 1 < chunks.length →
        chunks = packWords text (max 1 (limit - sequencePrefixLen chunks.length))) := by
  refine ⟨fun rounds enough => ?_, fun numbered => ?_⟩
  · obtain ⟨final, ends, _⟩ := repack_settles
      (length_packWords_le text (one_le_room limit (sequencePrefixLen 99))) enough
    exact ⟨final, ends⟩
  · obtain ⟨chunks, returned, packed⟩ : ∃ chunks, _ ∧ Packed text limit numbered chunks :=
      packWithSequenceBudget_spec pos numbered
    refine ⟨chunks, returned, fun is several => ?_⟩
    cases packed with
    | plain => cases is
    | single _ few => exact absurd several (not_lt.mpr few)
    | settled settled => exact settled

theorem packing_settles_two : ∃ chunks, packWithSequenceBudget "go go".toList 9 true = .ok chunks ∧
    (true = true → 1 < chunks.length →
      chunks = packWords "go go".toList (max 1 (9 - sequencePrefixLen chunks.length))) :=
  (packing_settles "go go".toList 9 (by decide)).2 true

/-! ## Packets -/

/-- The lead lines, with what separates them from a body. -/
def leadOf (text : Str) (firstLine : Option Str) : Str :=
  let lead := joinLines ([firstLine, (prepareText text).1].filterMap truthy)
  if lead = [] ∨ (prepareText text).2 = [] then lead else lead ++ ['\n']

/-- What a packet is besides its chunk: the mention, on the first the lead, and a number if
there is more than one. -/
def dressed (mention lead : Str) (numbered : Bool) (total index : Nat) (chunk : Str) : Str :=
  mention ++ (if index = 0 then lead else []) ++
    ((if numbered = true ∧ total > 1 then marker (index + 1) total else []) ++ chunk)

/-- A text with a body. -/
theorem packetize_of_body {text : Str} (some : (prepareText text).2 ≠ []) (maxChars : Int)
    (pre firstLine : Option Str) (numbered : Bool) :
    packetize text maxChars pre firstLine numbered =
      (packWithSequenceBudget (prepareText text).2
        (maxChars - (pre.getD []).length - (leadOf text firstLine).length) numbered).map
          fun chunks => chunks.mapIdx
            (dressed (pre.getD []) (leadOf text firstLine) numbered chunks.length) := by
  have leadPrefix : leadOf text firstLine =
      if joinLines ([firstLine, (prepareText text).1].filterMap truthy) = [] then []
      else joinLines ([firstLine, (prepareText text).1].filterMap truthy) ++ ['\n'] := by
    simp only [leadOf, some, or_false]
    split
    · next none => exact none
    · rfl
  rw [packetize]
  simp only [some, false_and, and_false, if_false, ← leadPrefix]
  cases packWithSequenceBudget (prepareText text).2
      (maxChars - (pre.getD []).length - (leadOf text firstLine).length) numbered with
  | error e => rfl
  | ok chunks =>
      refine congrArg Except.ok (List.ext_getElem (by simp) fun i before _ => ?_)
      simp only [List.getElem_map, List.getElem_zipIdx, List.getElem_mapIdx, dressed]
      have first : 1 + i = 1 ↔ i = 0 := by omega
      rw [Nat.add_comm i 1]
      simp only [first, Bool.and_eq_true, decide_eq_true_eq]
      congr 1
      split <;> simp

/-- A chunk is one word or within the room. -/
theorem length_chunk_le {text chunk : Str} {room most : Int} (nonneg : 0 ≤ room)
    (there : chunk ∈ packWords text room)
    (words : ∀ word ∈ splitWords text, (word.length : Int) ≤ most) (enough : room ≤ most) :
    (chunk.length : Int) ≤ most := by
  rw [packWords_eq nonneg] at there
  obtain ⟨line, listed, rfl⟩ := List.mem_map.mp there
  rcases (Packing.fits_greedy _ _ line listed).short with one | narrow
  · obtain ⟨word, rfl⟩ := List.length_eq_one_iff.mp one
    rw [joinWords_singleton]
    refine words word ?_
    have whole := List.mem_flatten.mpr ⟨_, listed, List.mem_singleton_self word⟩
    rwa [Packing.flatten_greedy] at whole
  · rw [length_joinWords]
    omega

theorem splitWords_strip (text : Str) : splitWords (strip text) = splitWords text :=
  (Words.split_rdropWhile _).trans (Words.split_dropWhile _)

/-- What is stripped and not empty has a word. -/
theorem exists_word_of_strip {text : Str} (some : strip text ≠ []) :
    ∃ word, word ∈ splitWords (strip text) ∧ word ≠ [] := by
  cases words : splitWords (strip text) with
  | cons word rest =>
      have there : word ∈ splitWords (strip text) := words ▸ List.mem_cons_self
      exact ⟨word, words ▸ there, (Words.of_mem_split there).1⟩
  | nil =>
      rw [splitWords_strip] at words
      have blank := Words.split_eq_nil_iff.mp words
      have left : lstrip text = [] := List.dropWhile_eq_nil_iff.mpr blank
      exact absurd (by rw [strip, left]; rfl) some

theorem exists_word_of_body {text : Str} (some : (prepareText text).2 ≠ []) :
    ∃ word, word ∈ splitWords (prepareText text).2 ∧ word ≠ [] := by
  have stripped : (prepareText text).2 = [] ∨
      ∃ lines, (prepareText text).2 = collapseLines lines := by
    rw [prepareText]
    split
    · exact .inl rfl
    · exact .inr ⟨_, rfl⟩
    · split <;> exact .inr ⟨_, rfl⟩
  obtain ⟨lines, is⟩ := stripped.resolve_left some
  rw [is, collapseLines] at some ⊢
  exact exists_word_of_strip some

/-- A number, if the packets have one. -/
def numberOf (numbered : Bool) (total index : Nat) : Str :=
  if numbered = true ∧ total > 1 then marker (index + 1) total else []

/-- With room for each word beside a number, chunks fit with their numbers. -/
theorem Packed.fit {text : Str} {limit : Int} {numbered : Bool} {chunks : List Str}
    (packed : Packed text limit numbered chunks)
    (room : 1 ≤ limit - sequencePrefixLen chunks.length)
    (short : ∀ word ∈ splitWords text,
      (word.length : Int) ≤ limit - sequencePrefixLen chunks.length)
    {index : Nat} (before : index < chunks.length) :
    ((numberOf numbered chunks.length index).length + chunks[index].length : Int) ≤ limit := by
  have there := List.getElem_mem before
  have words : ∀ word ∈ splitWords text, (word.length : Int) ≤ limit := fun word there =>
    (short word there).trans (Int.sub_le_self _ (Int.natCast_nonneg _))
  cases packed with
  | plain =>
      have fits := length_chunk_le (by omega) there words le_rfl
      have none : numberOf false (packWords text limit).length index = [] := if_neg (by simp)
      rw [none, List.length_nil]
      omega
  | single is few =>
      have fits : (chunks[index].length : Int) ≤ limit := by
        refine length_chunk_le (one_le_room limit (sequencePrefixLen 99)) ?_ words (by omega)
        rw [← is]
        exact there
      have none : numberOf true chunks.length index = [] := if_neg (by omega)
      rw [none, List.length_nil]
      omega
  | settled settled =>
      have fits : (chunks[index].length : Int) ≤ limit - sequencePrefixLen chunks.length := by
        refine length_chunk_le (one_le_room limit (sequencePrefixLen chunks.length)) ?_ short
          (by omega)
        rw [← settled]
        exact there
      have number :
          (numberOf true chunks.length index).length ≤ sequencePrefixLen chunks.length := by
        rw [numberOf]
        split
        · exact length_marker_le before
        · exact Nat.zero_le _
      omega

/-- Packets fit: with room for each word beside the lead and a number, nothing is too long. -/
theorem packets_fit (text : Str) (maxChars : Int) (pre firstLine : Option Str) (numbered : Bool)
    (n : Nat) (some : (prepareText text).2 ≠ [])
    (count : ∀ packets, packetize text maxChars pre firstLine numbered = .ok packets →
      packets.length = n)
    (short : ∀ word ∈ splitWords (prepareText text).2, (word.length : Int) ≤
      maxChars - (pre.getD []).length - (leadOf text firstLine).length - (marker n n).length) :
    ∃ packets, packetize text maxChars pre firstLine numbered = .ok packets ∧
      ∀ packet ∈ packets, (packet.length : Int) ≤ maxChars := by
  obtain ⟨word, there, nonempty⟩ := exists_word_of_body some
  have long := short word there
  have one := List.length_pos_iff.mpr nonempty
  rw [packetize_of_body some] at count ⊢
  obtain ⟨chunks, returned, packed⟩ : ∃ chunks, _ ∧ Packed (prepareText text).2
      (maxChars - (pre.getD []).length - (leadOf text firstLine).length) numbered chunks :=
    packWithSequenceBudget_spec (by omega) numbered
  rw [returned] at count ⊢
  obtain rfl : chunks.length = n := by
    rw [← count _ rfl, List.length_mapIdx]
  refine ⟨_, rfl, fun packet listed => ?_⟩
  obtain ⟨index, before, rfl⟩ := List.mem_mapIdx.mp listed
  have fits := packed.fit (by rw [sequencePrefixLen]; omega) short before
  have lead : (if index = 0 then leadOf text firstLine else []).length ≤
      (leadOf text firstLine).length := by
    split
    · exact le_rfl
    · exact Nat.zero_le _
  rw [dressed, ← numberOf, List.length_append, List.length_append, List.length_append]
  omega

def field : Str :=
  "West of House\nYou are standing in an open field west of a white house.".toList

/-- What is sent of the field on a channel: whom it is for, the command, the title, and three
numbered packets. -/
def fieldPackets : List Str :=
  ["@[alice] > look\nWest of House\n(1/3) You are standing in".toList,
    "@[alice] (2/3) an open field west".toList, "@[alice] (3/3) of a white house.".toList]

theorem packetize_field :
    packetize field 56 (some "@[alice] ".toList) (some "> look".toList) true = .ok fieldPackets := by
  decide +kernel

theorem packets_fit_field : ∃ packets,
    packetize field 56 (some "@[alice] ".toList) (some "> look".toList) true = .ok packets ∧
      ∀ packet ∈ packets, (packet.length : Int) ≤ 56 :=
  packets_fit field 56 (some "@[alice] ".toList) (some "> look".toList) true 3 (by decide +kernel)
    (fun packets returned => by
      obtain rfl := Except.ok.inj (returned.symm.trans packetize_field)
      rfl)
    (by decide +kernel)

end Zorkbot.Bot
