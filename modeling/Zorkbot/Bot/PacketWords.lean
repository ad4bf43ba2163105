/-
# What packets say

Taking the lead lines and the numbers off the packets leaves the words of the text, all of
them and in order: stripping, trimming, collapsing and packing only change what stands between
words.
-/

import Zorkbot.Bot.PacketBudget

namespace Zorkbot.Bot

open Packing (greedy fill width)

/-! ## Words -/

theorem splitWords_joinWords (pieces : List Str) :
    splitWords (joinWords pieces) = pieces.flatMap splitWords :=
  Words.split_intercalate (by decide) pieces

/-- A word has no white space. -/
theorem plain_of_mem_splitWords {text word : Str} (there : word ∈ splitWords text) :
    word ≠ [] ∧ ∀ c ∈ word, isSpace c = false :=
  Words.of_mem_split there

theorem splitWords_normalizeNewlines (before text : Str) :
    splitWords (before ++ Pty.normalizeNewlines text) = splitWords (before ++ text) := by
  have newline : isSpace '\n' = true := by decide
  have return_ : isSpace '\r' = true := by decide
  fun_induction Pty.normalizeNewlines text generalizing before with
  | case1 rest ih =>
      have := ih []
      rw [List.nil_append, List.nil_append] at this
      rw [splitWords, splitWords, Words.split_append_cons newline, Words.split_append_cons return_,
        Words.split_cons newline, ← splitWords, ← splitWords, ← splitWords, this]
  | case2 rest _ ih =>
      have := ih []
      rw [List.nil_append, List.nil_append] at this
      rw [splitWords, splitWords, Words.split_append_cons newline, Words.split_append_cons return_,
        ← splitWords, ← splitWords, ← splitWords, this]
  | case3 c rest _ _ ih =>
      have := ih (before ++ [c])
      rwa [List.append_assoc, List.append_assoc, List.singleton_append, List.singleton_append] at this
  | case4 => rfl

theorem flatMap_dropWhile_blank (lines : List Str) :
    (lines.dropWhile (· = [])).flatMap splitWords = lines.flatMap splitWords := by
  induction lines with
  | nil => rfl
  | cons line lines ih =>
      rw [List.dropWhile_cons]
      split
      · next blank =>
          rw [ih, of_decide_eq_true blank]
          rfl
      · rfl

theorem flatMap_rdropWhile_blank (lines : List Str) :
    (lines.reverse.dropWhile (· = [])).reverse.flatMap splitWords = lines.flatMap splitWords := by
  induction lines using List.reverseRecOn with
  | nil => rfl
  | append_singleton lines line ih =>
      rw [List.reverse_append, List.reverse_singleton, List.singleton_append, List.dropWhile_cons]
      split
      · next blank =>
          rw [ih, of_decide_eq_true blank, List.flatMap_append]
          exact (List.append_nil _).symm
      · rw [List.reverse_cons, List.reverse_reverse]

theorem flatMap_trimmedLines (text : Str) :
    (trimmedLines text).flatMap splitWords = splitWords (stripAnsi text) := by
  rw [trimmedLines, flatMap_rdropWhile_blank, flatMap_dropWhile_blank, List.flatMap_map]
  have lines : ∀ lines : List Str, (lines.flatMap fun line => splitWords (strip line)) =
      lines.flatMap splitWords := fun lines => by
    congr 1
    funext line
    exact splitWords_strip line
  rw [lines]
  exact (Words.flatMap_splitOn (by decide) _).trans (splitWords_normalizeNewlines [] _)

theorem flatMap_collapseLoop (collapsed : List Str) (blank : Bool) (lines : List Str) :
    (collapseLoop collapsed blank lines).flatMap splitWords =
      collapsed.flatMap splitWords ++ lines.flatMap splitWords := by
  fun_induction collapseLoop collapsed blank lines with
  | case1 => rw [List.flatMap_nil, List.append_nil]
  | case2 collapsed blank lines _ ih =>
      rw [ih, List.flatMap_append, List.append_assoc]
      rfl
  | case3 collapsed blank lines _ ih => exact ih
  | case4 collapsed blank line lines _ ih =>
      rw [ih, List.flatMap_append, List.append_assoc, List.flatMap_cons, List.flatMap_cons,
        List.flatMap_nil, List.append_nil]

theorem splitWords_collapseLines (lines : List Str) :
    splitWords (collapseLines lines) = lines.flatMap splitWords := by
  rw [collapseLines, splitWords_strip, splitWords_joinWords, flatMap_collapseLoop, List.flatMap_nil,
    List.nil_append]

/-- The words of the title and of the body are those of the text. -/
theorem splitWords_prepareText (text : Str) :
    (prepareText text).1.toList.flatMap splitWords ++ splitWords (prepareText text).2 =
      splitWords (stripAnsi text) := by
  rw [← flatMap_trimmedLines, prepareText]
  split
  · next none => rw [none]; rfl
  · next one => rw [one, splitWords_collapseLines]; rfl
  · next line lines _ more =>
      rw [more]
      split
      · rw [splitWords_collapseLines, Option.toList_some, List.flatMap_cons, List.flatMap_nil,
          List.append_nil, List.flatMap_cons]
      · rw [splitWords_collapseLines]
        rfl

/-! ## Packets -/

theorem newline_notMem_joinWords {words : List Str} (plain : ∀ word ∈ words, '\n' ∉ word) :
    '\n' ∉ joinWords words := by
  induction words with
  | nil => exact List.not_mem_nil
  | cons word words ih =>
      have rest := ih fun later there => plain later (List.mem_cons_of_mem _ there)
      cases words with
      | nil =>
          rw [joinWords_singleton]
          exact plain word List.mem_cons_self
      | cons next words =>
          rw [joinWords_cons_cons, List.mem_append, List.mem_cons]
          rintro (here | space | later)
          · exact plain word List.mem_cons_self here
          · exact absurd space (by decide)
          · exact rest later

/-- The chunks have the words, and white space only between them. -/
theorem words_of_packed (text : Str) {room : Int} (nonneg : 0 ≤ room) :
    (packWords text room).flatMap splitWords = splitWords text ∧
      ∀ chunk ∈ packWords text room, '\n' ∉ chunk := by
  have plain : ∀ line ∈ greedy List.length room.toNat (splitWords text), ∀ word ∈ line,
      word ≠ [] ∧ ∀ c ∈ word, isSpace c = false := fun line there word listed => by
    have whole := List.mem_flatten.mpr ⟨line, there, listed⟩
    rw [Packing.flatten_greedy] at whole
    exact plain_of_mem_splitWords whole
  rw [packWords_eq nonneg]
  constructor
  · rw [List.flatMap_map]
    have lines : (greedy List.length room.toNat (splitWords text)).flatMap
        (fun line => splitWords (joinWords line)) =
          (greedy List.length room.toNat (splitWords text)).flatMap id := by
      refine List.flatMap_congr fun line there => ?_
      exact Words.split_join (by decide) (plain line there)
    rw [lines, List.flatMap_id, Packing.flatten_greedy]
  · intro chunk there
    obtain ⟨line, listed, rfl⟩ := List.mem_map.mp there
    refine newline_notMem_joinWords fun word within newline => ?_
    have space := (plain line listed word within).2 '\n' newline
    exact absurd space (by decide)

theorem Packed.words {text : Str} {limit : Int} (pos : 0 < limit) {numbered : Bool}
    {chunks : List Str} (packed : Packed text limit numbered chunks) :
    chunks.flatMap splitWords = splitWords text ∧ ∀ chunk ∈ chunks, '\n' ∉ chunk := by
  cases packed with
  | plain => exact words_of_packed text pos.le
  | single is _ =>
      rw [is]
      exact words_of_packed text (one_le_room limit _)
  | settled settled =>
      rw [settled]
      exact words_of_packed text (one_le_room limit _)

/-- Only a budget that is used up makes `packetize` raise. -/
theorem packetize_error {text : Str} (some : (prepareText text).2 ≠ []) (maxChars : Int)
    (pre firstLine : Option Str) (numbered : Bool)
    (none : maxChars - (pre.getD []).length - (leadOf text firstLine).length ≤ 0) :
    packetize text maxChars pre firstLine numbered = .error .value := by
  rw [packetize_of_body some, packWithSequenceBudget, if_pos none]
  rfl

/-- A text without a body is one packet, if there is a lead. -/
theorem packetize_of_no_body {text : Str} (none : (prepareText text).2 = []) (maxChars : Int)
    (pre firstLine : Option Str) (numbered : Bool) :
    packetize text maxChars pre firstLine numbered =
      .ok (if leadOf text firstLine = [] then [] else [pre.getD [] ++ leadOf text firstLine]) := by
  have lead : leadOf text firstLine =
      joinLines ([firstLine, (prepareText text).1].filterMap truthy) :=
    if_pos (.inr none)
  rw [packetize, lead]
  simp only [none, true_and, if_true]
  split
  · next nothing =>
      have empty : [firstLine, (prepareText text).1].filterMap truthy = [] := by
        rw [List.filterMap_cons, nothing.2, List.filterMap_cons, nothing.1, List.filterMap_nil]
      rw [empty]
      rfl
  · rfl

/-- Nothing is lost: the chunks have the words that follow the title. -/
theorem packetize_keeps_words (text : Str) (maxChars : Int) (pre firstLine : Option Str)
    (numbered : Bool) (packets : List Str)
    (returned : packetize text maxChars pre firstLine numbered = .ok packets) :
    ∃ chunks : List Str,
      packets = chunks.mapIdx
        (dressed (pre.getD []) (leadOf text firstLine) numbered chunks.length) ∧
      (prepareText text).1.toList.flatMap splitWords ++ chunks.flatMap splitWords =
        splitWords (stripAnsi text) ∧
      ∀ chunk ∈ chunks, '\n' ∉ chunk := by
  have words := splitWords_prepareText text
  by_cases body : (prepareText text).2 = []
  · rw [packetize_of_no_body body] at returned
    obtain rfl := Except.ok.inj returned
    rw [body] at words
    split
    · exact ⟨[], rfl, words, fun _ there => absurd there List.not_mem_nil⟩
    · refine ⟨[[]], ?_, words, fun chunk there => ?_⟩
      · simp [dressed]
      · rw [List.mem_singleton.mp there]
        exact List.not_mem_nil
  · by_cases pos : 0 < maxChars - (pre.getD []).length - (leadOf text firstLine).length
    · obtain ⟨chunks, packs, packed⟩ : ∃ chunks, _ ∧ Packed (prepareText text).2
          (maxChars - (pre.getD []).length - (leadOf text firstLine).length) numbered chunks :=
        packWithSequenceBudget_spec pos numbered
      rw [packetize_of_body body, packs] at returned
      obtain rfl := Except.ok.inj returned
      refine ⟨chunks, rfl, ?_, (packed.words pos).2⟩
      rw [(packed.words pos).1, words]
    · rw [packetize_error body maxChars pre firstLine numbered (not_lt.mp pos)] at returned
      cases returned

theorem packetize_keeps_words_field : ∃ chunks : List Str,
    fieldPackets = chunks.mapIdx (dressed "@[alice] ".toList
      (leadOf field (some "> look".toList)) true chunks.length) ∧
    (prepareText field).1.toList.flatMap splitWords ++ chunks.flatMap splitWords =
      splitWords (stripAnsi field) ∧
    ∀ chunk ∈ chunks, '\n' ∉ chunk :=
  packetize_keeps_words field 56 (some "@[alice] ".toList) (some "> look".toList) true fieldPackets
    packetize_field

end Zorkbot.Bot
