/-
# What comes after the prompt

A reader stops at the prompt, and the interpreter prints on: a blank, or the
title of the terminal's window. What a reader had not read when it stopped makes
no difference to the answer cut out of its output, if it adds nothing to the text
but blanks once the control sequences are stripped.
-/

import Mathlib.Data.List.GetD
import Zorkbot.Pty.Fragments

namespace Zorkbot.Pty

open Go

/-- A blank within a line. -/
def isGap (c : Char) : Bool := c == ' ' || c == '\t'

/-- The rest of an output adds nothing to the text but blanks. -/
def Trails (buf rest : Text) : Prop :=
  stripANSI buf <+: stripANSI (buf ++ rest) ∧
    ((stripANSI (buf ++ rest)).drop (stripANSI buf).length).all isGap = true

instance (buf rest : Text) : Decidable (Trails buf rest) := inferInstanceAs (Decidable (_ ∧ _))

/-- The gap is made of blanks. -/
def Blank (gap : Text) : Prop := ∀ c ∈ gap, isGap c = true

variable {gap : Text}

theorem Trails.behind {buf rest : Text} (trails : Trails buf rest) :
    ∃ gap, Blank gap ∧ stripANSI (buf ++ rest) = stripANSI buf ++ gap := by
  obtain ⟨⟨gap, whole⟩, blank⟩ := trails
  rw [← whole, List.drop_left, List.all_eq_true] at blank
  exact ⟨gap, blank, whole.symm⟩

theorem Blank.tail {c : Char} (blank : Blank (c :: gap)) : Blank gap :=
  fun d listed => blank d (List.mem_cons_of_mem c listed)

theorem isGap_cases {c : Char} (is : isGap c = true) : c = ' ' ∨ c = '\t' := by
  simpa [isGap] using is

/-- A blank is none of the characters that are looked for. -/
theorem Blank.notMem (blank : Blank gap) {c : Char} (solid : isGap c = false) : c ∉ gap := by
  intro listed
  rw [blank c listed] at solid
  simp at solid

theorem Blank.space (blank : Blank gap) {c : Char} (listed : c ∈ gap) : isSpace c = true := by
  rcases isGap_cases (blank c listed) with rfl | rfl <;> decide

theorem trimSpace_append_blank (blank : Blank gap) (t : Text) :
    trimSpace (t ++ gap) = trimSpace t := by
  have spaces : ∀ c ∈ gap, isSpace c = true := fun c listed => blank.space listed
  have trimmed (u : Text) : trimRightFunc isSpace (u ++ gap) = trimRightFunc isSpace u := by
    unfold trimRightFunc
    rw [List.reverse_append, List.dropWhile_append_of_pos fun c listed =>
      spaces c (List.mem_reverse.mp listed)]
  unfold trimSpace
  by_cases all : ∀ c ∈ t, isSpace c = true
  · rw [List.dropWhile_append_of_pos all, List.dropWhile_eq_nil_iff.mpr all,
      List.dropWhile_eq_nil_iff.mpr spaces]
  · obtain ⟨c, listed, solid⟩ : ∃ c ∈ t, isSpace c ≠ true := by simpa using all
    rw [List.dropWhile_append, if_neg (by
      rw [List.isEmpty_iff, List.dropWhile_eq_nil_iff]
      exact fun every => solid (every c listed)), trimmed]

/-! ## Stripping control sequences -/

/-- Where a match is not changed by blanks behind it, deleting the matches is not
either. -/
theorem deleteMatches_append_blank {matchLength : Text → Option Nat}
    (same : ∀ (t : Text) {gap : Text}, Blank gap → matchLength (t ++ gap) = matchLength t)
    (inside : ∀ t n, matchLength t = some n → n ≤ t.length) (blank : Blank gap) (t : Text)
    {skip : Nat} (short : skip ≤ t.length) :
    deleteMatches matchLength skip (t ++ gap) = deleteMatches matchLength skip t ++ gap := by
  have none_ : matchLength [] = none ∨ matchLength [] = some 0 := by
    cases found : matchLength [] with
    | none => exact .inl rfl
    | some n => exact .inr (congrArg some (Nat.le_zero.mp (inside [] n found)))
  induction t generalizing skip with
  | nil =>
      obtain rfl : skip = 0 := Nat.le_zero.mp short
      simp only [List.nil_append, deleteMatches]
      induction gap with
      | nil => rfl
      | cons c gap ih =>
          have nothing := same [] blank
          rw [List.nil_append] at nothing
          rw [deleteMatches]
          rcases none_ with none_ | none_ <;> rw [nothing, none_] <;> rw [ih blank.tail]
  | cons c t ih =>
      cases skip with
      | succ skip =>
          simp only [List.cons_append, deleteMatches]
          exact ih (Nat.le_of_succ_le_succ short)
      | zero =>
          have again := same (c :: t) blank
          simp only [List.cons_append] at again ⊢
          simp only [deleteMatches, again]
          split
          · next n found =>
              exact ih (Nat.le_of_succ_le_succ (inside (c :: t) _ found))
          · rw [ih (Nat.zero_le _), List.cons_append]

theorem takeWhile_append_blank {p : Char → Bool} (stops : ∀ c, isGap c = true → p c = false)
    (blank : Blank gap) (t : Text) : (t ++ gap).takeWhile p = t.takeWhile p := by
  induction t with
  | nil =>
      cases gap with
      | nil => rfl
      | cons c gap => simp [stops c (blank c List.mem_cons_self)]
  | cons c t ih => simp [List.takeWhile_cons, ih]

theorem dropWhile_append_blank {p : Char → Bool} (stops : ∀ c, isGap c = true → p c = false)
    (blank : Blank gap) (t : Text) : (t ++ gap).dropWhile p = t.dropWhile p ++ gap := by
  induction t with
  | nil =>
      cases gap with
      | nil => rfl
      | cons c gap => simp [stops c (blank c List.mem_cons_self)]
  | cons c t ih =>
      rw [List.cons_append, List.dropWhile_cons, List.dropWhile_cons]
      split
      · exact ih
      · rfl

theorem beforeBell_append_blank (blank : Blank gap) (t : Text) :
    beforeBell (t ++ gap) = beforeBell t := by
  have absent : '\x07' ∉ gap := blank.notMem (by decide)
  unfold beforeBell
  by_cases bell : '\x07' ∈ t
  · rw [if_pos bell, if_pos (List.mem_append_left _ bell), List.takeWhile_append, if_neg]
    intro all
    have through := List.takeWhile_eq_self_iff.mp
      ((List.takeWhile_prefix _).eq_of_length all) _ bell
    simp at through
  · rw [if_neg bell, if_neg (by simp [bell, absent])]

theorem throughTerminator_append_blank (blank : Blank gap) (t : Text) :
    throughTerminator (t ++ gap) = throughTerminator t := by
  have nothing {gap : Text} (blank : Blank gap) : throughTerminator gap = none := by
    induction gap with
    | nil => rfl
    | cons c gap ih =>
        cases gap with
        | nil => rfl
        | cons d gap =>
            have solid : c ≠ '\x1b' := by
              rintro rfl
              exact absurd (blank _ List.mem_cons_self) (by decide)
            rw [throughTerminator, ih blank.tail]
            simp [solid]
  induction t with
  | nil => exact nothing blank
  | cons c t ih =>
      cases t with
      | nil =>
          cases gap with
          | nil => rfl
          | cons d gap =>
              have solid : d ≠ '\\' := by
                rintro rfl
                exact absurd (blank _ List.mem_cons_self) (by decide)
              simp only [List.cons_append, List.nil_append, throughTerminator, nothing blank]
              simp [solid]
      | cons d t =>
          simp only [List.cons_append] at ih ⊢
          simp only [throughTerminator, ih]

/-- A match begins with the escape character and its bracket. -/
theorem oscLength_eq_none {c d : Char} (other : ¬(c = '\x1b' ∧ d = ']')) (rest : Text) :
    oscLength (c :: d :: rest) = none := by
  unfold oscLength
  split
  · next same => simp_all
  · rfl

theorem csiLength_eq_none {c d : Char} (other : ¬(c = '\x1b' ∧ d = '[')) (rest : Text) :
    csiLength (c :: d :: rest) = none := by
  unfold csiLength
  split
  · next same => simp_all
  · rfl

theorem oscLength_append_blank (t : Text) (blank : Blank gap) :
    oscLength (t ++ gap) = oscLength t := by
  match t with
  | [] =>
      cases gap with
      | nil => rfl
      | cons c gap =>
          rcases isGap_cases (blank c List.mem_cons_self) with rfl | rfl <;> rfl
  | [c] =>
      cases gap with
      | nil => rfl
      | cons d gap =>
          rcases isGap_cases (blank d List.mem_cons_self) with rfl | rfl <;>
            simp [oscLength]
  | c :: d :: rest =>
      by_cases opens : c = '\x1b' ∧ d = ']'
      · obtain ⟨rfl, rfl⟩ := opens
        simp only [List.cons_append, oscLength, beforeBell_append_blank blank,
          throughTerminator_append_blank blank]
      · rw [List.cons_append, List.cons_append, oscLength_eq_none opens, oscLength_eq_none opens]

/-- A control sequence ends after its parameters and intermediates, if it ends. -/
theorem csiLength_eq (rest : Text) :
    csiLength ('\x1b' :: '[' :: rest) =
      if ((rest.dropWhile isParameter).dropWhile isIntermediate).head?.any isFinal then
        some (2 + (rest.takeWhile isParameter).length +
          ((rest.dropWhile isParameter).takeWhile isIntermediate).length + 1)
      else none := by
  simp only [csiLength]
  cases (rest.dropWhile isParameter).dropWhile isIntermediate <;> rfl

/-- Blanks end no control sequence. -/
theorem ends_append_blank (blank : Blank gap) (t : Text) :
    ((t ++ gap).dropWhile isIntermediate).head?.any isFinal =
      (t.dropWhile isIntermediate).head?.any isFinal := by
  induction t with
  | nil =>
      induction gap with
      | nil => rfl
      | cons c gap ih =>
          rw [List.nil_append, List.dropWhile_cons]
          split
          · exact ih blank.tail
          · rcases isGap_cases (blank c List.mem_cons_self) with rfl | rfl <;> rfl
  | cons c t ih =>
      rw [List.cons_append, List.dropWhile_cons, List.dropWhile_cons]
      split
      · exact ih
      · rfl

theorem csiLength_append_blank (t : Text) (blank : Blank gap) :
    csiLength (t ++ gap) = csiLength t := by
  match t with
  | [] =>
      cases gap with
      | nil => rfl
      | cons c gap =>
          rcases isGap_cases (blank c List.mem_cons_self) with rfl | rfl <;> rfl
  | [c] =>
      cases gap with
      | nil => rfl
      | cons d gap =>
          rcases isGap_cases (blank d List.mem_cons_self) with rfl | rfl <;>
            simp [csiLength]
  | c :: d :: rest =>
      by_cases opens : c = '\x1b' ∧ d = '['
      · obtain ⟨rfl, rfl⟩ := opens
        have plain : ∀ c, isGap c = true → isParameter c = false := fun c is => by
          rcases isGap_cases is with rfl | rfl <;> decide
        rw [List.cons_append, List.cons_append, csiLength_eq, csiLength_eq,
          takeWhile_append_blank plain blank, dropWhile_append_blank plain blank,
          ends_append_blank blank]
        split
        · next ends =>
            have stops : ((rest.dropWhile isParameter).takeWhile isIntermediate).length ≠
                (rest.dropWhile isParameter).length := fun all => by
              rw [List.takeWhile_eq_self_iff.mp ((List.takeWhile_prefix _).eq_of_length all)
                |> List.dropWhile_eq_nil_iff.mpr] at ends
              simp at ends
            rw [List.takeWhile_append, if_neg stops]
        · rfl
      · rw [List.cons_append, List.cons_append, csiLength_eq_none opens, csiLength_eq_none opens]

/-! ### The length of a match -/

theorem throughTerminator_le {t : Text} {n : Nat} (found : throughTerminator t = some n) :
    n ≤ t.length := by
  induction t generalizing n with
  | nil => simp [throughTerminator] at found
  | cons c t ih =>
      cases t with
      | nil => simp [throughTerminator] at found
      | cons d t =>
          rw [throughTerminator] at found
          split at found
          · next k later =>
              rw [Option.some.injEq] at found
              have := ih later
              simp only [List.length_cons] at this ⊢
              omega
          · simp only [Option.ite_none_right_eq_some, Option.some.injEq] at found
            obtain ⟨-, rfl⟩ := found
            simp

theorem oscLength_le (t : Text) (n : Nat) (found : oscLength t = some n) : n ≤ t.length := by
  unfold oscLength at found
  split at found
  · next rest =>
      simp only [List.length_cons]
      split at found
      · next k before =>
          simp only [beforeBell, Option.ite_none_right_eq_some, Option.some.injEq] at before found
          obtain ⟨bell, rfl⟩ := before
          have shorter : (rest.takeWhile (· ≠ '\x07')).length < rest.length := by
            refine lt_of_le_of_ne (List.takeWhile_prefix _).length_le fun all => ?_
            have through := List.takeWhile_eq_self_iff.mp
              ((List.takeWhile_prefix _).eq_of_length all) _ bell
            simp at through
          omega
      · obtain ⟨k, through, rfl⟩ := Option.map_eq_some_iff.mp found
        have := throughTerminator_le through
        omega
  · simp at found

theorem csiLength_le (t : Text) (n : Nat) (found : csiLength t = some n) : n ≤ t.length := by
  match t with
  | [] => simp [csiLength] at found
  | [c] => simp [csiLength] at found
  | c :: d :: rest =>
      by_cases opens : c = '\x1b' ∧ d = '['
      · obtain ⟨rfl, rfl⟩ := opens
        simp only [csiLength_eq, Option.ite_none_right_eq_some, Option.some.injEq] at found
        obtain ⟨ends, rfl⟩ := found
        generalize behind : rest.dropWhile isParameter = u at ends ⊢
        have whole := congrArg List.length (List.takeWhile_append_dropWhile (p := isParameter)
          (l := rest))
        have rest_ := congrArg List.length (List.takeWhile_append_dropWhile (p := isIntermediate)
          (l := u))
        have final : 0 < (u.dropWhile isIntermediate).length := by
          cases last : u.dropWhile isIntermediate with
          | nil => rw [last] at ends; simp at ends
          | cons c v => simp
        rw [behind] at whole
        simp only [List.length_append, List.length_cons] at whole rest_ ⊢
        omega
      · rw [csiLength_eq_none opens] at found
        cases found

theorem stripANSI_append_blank (blank : Blank gap) (t : Text) :
    stripANSI (t ++ gap) = stripANSI t ++ gap := by
  unfold stripANSI
  rw [deleteMatches_append_blank (fun t _ => oscLength_append_blank t) oscLength_le blank t
      (Nat.zero_le _),
    deleteMatches_append_blank (fun t _ => csiLength_append_blank t) csiLength_le blank _
      (Nat.zero_le _)]

/-! ## Lines -/

theorem isPromptOnlyLine_append_blank (blank : Blank gap) (line : Text) :
    isPromptOnlyLine (line ++ gap) = isPromptOnlyLine line := by
  unfold isPromptOnlyLine
  rw [stripANSI_append_blank blank, trimSpace_append_blank blank]

theorem normalizeNewlines_append_blank (blank : Blank gap) (t : Text) :
    normalizeNewlines (t ++ gap) = normalizeNewlines t ++ gap := by
  have plain {gap : Text} (blank : Blank gap) : normalizeNewlines gap = gap := by
    induction gap with
    | nil => rfl
    | cons c gap ih =>
        rcases isGap_cases (blank c List.mem_cons_self) with rfl | rfl <;>
          simp [normalizeNewlines, ih blank.tail]
  induction t using normalizeNewlines.induct with
  | case1 rest ih => simp [normalizeNewlines, ih]
  | case2 rest other ih =>
      cases rest with
      | nil =>
          cases gap with
          | nil => rfl
          | cons c gap =>
              have again := plain blank
              rcases isGap_cases (blank c List.mem_cons_self) with rfl | rfl <;>
                simp [normalizeNewlines, again]
      | cons c rest =>
          have apart : c ≠ '\n' := fun same => other rest (by rw [same])
          simp only [List.cons_append] at ih ⊢
          simp [normalizeNewlines, apart, ih]
  | case3 c rest first second ih => simp_all [normalizeNewlines]
  | case4 => simpa [normalizeNewlines] using plain blank

theorem notMem_splitLines {line t : Text} (listed : line ∈ splitLines t) : '\n' ∉ line := by
  rw [splitLines, List.splitOn_eq_splitOnP] at listed
  intro inside
  simpa using Words.mem_splitOnP listed '\n' inside

/-- Blanks behind a text are behind its last line. -/
theorem splitLines_append_blank (blank : Blank gap) (t : Text) :
    ∃ front last, splitLines t = front ++ [last] ∧
      splitLines (t ++ gap) = front ++ [last ++ gap] := by
  induction t with
  | nil =>
      refine ⟨[], [], by simp [splitLines], ?_⟩
      simpa using splitLines_of_notMem (blank.notMem (by decide))
  | cons c t ih =>
      obtain ⟨front, last, lines, lines'⟩ := ih
      unfold splitLines at lines lines' ⊢
      rw [List.cons_append, List.splitOn_cons_eq_if_modifyHead,
        List.splitOn_cons_eq_if_modifyHead, lines, lines']
      split
      · exact ⟨[] :: front, last, rfl, rfl⟩
      · cases front with
        | nil => exact ⟨[], c :: last, rfl, rfl⟩
        | cons line front => exact ⟨(c :: line) :: front, last, rfl, rfl⟩

/-! ## The answer -/

/-- Lines that the cutting of an answer does not tell apart. -/
structure Resembles (line line' : Text) : Prop where
  trimmed : trimSpace line = trimSpace line'
  prompt : isPromptOnlyLine line = isPromptOnlyLine line'

variable {lines lines' : List Text}

theorem alike_of_resembles (resemble : List.Forall₂ Resembles lines lines') :
    List.Forall₂ Alike lines lines' :=
  resemble.imp fun _ _ same => congrArg toLower same.trimmed

theorem skipEchoLineLoop_resembles (resemble : List.Forall₂ Resembles lines lines')
    (command : Text) (i : Nat) :
    skipEchoLineLoop command i lines = skipEchoLineLoop command i lines' := by
  induction resemble generalizing i with
  | nil => rfl
  | cons same _ ih => simp only [skipEchoLineLoop, same.trimmed, ih]

theorem answerStart_resembles (resemble : List.Forall₂ Resembles lines lines') (command : Text) :
    answerStart lines command = answerStart lines' command := by
  have first : skipCommandEcho lines command = skipCommandEcho lines' command := by
    simp only [skipCommandEcho, skipEchoLoop_alike (alike_of_resembles resemble) rfl]
  have second : skipCommandEchoLine lines command = skipCommandEchoLine lines' command :=
    skipEchoLineLoop_resembles resemble ..
  rw [answerStart, answerStart, first, second]

theorem promptIndex_resembles (resemble : List.Forall₂ Resembles lines lines') (start : Nat) :
    promptIndex lines start = promptIndex lines' start := by
  have prompts : lines.map isPromptOnlyLine = lines'.map isPromptOnlyLine := by
    induction resemble with
    | nil => rfl
    | cons same _ ih => rw [List.map_cons, List.map_cons, same.prompt, ih]
  have each (i : Nat) : isPromptOnlyLine (lines.getD i []) = isPromptOnlyLine (lines'.getD i []) := by
    rw [← List.getD_map lines [] isPromptOnlyLine, prompts, List.getD_map]
  simp only [promptIndex, resemble.length_eq, each]

theorem collapseLoop_resembles (resemble : List.Forall₂ Resembles lines lines') (out : List Text)
    (blank : Bool) : collapseLoop out blank lines = collapseLoop out blank lines' := by
  induction resemble generalizing out blank with
  | nil => rfl
  | cons same _ ih => simp only [collapseLoop, same.trimmed, ih]

theorem collapse_resembles (resemble : List.Forall₂ Resembles lines lines')
    (single : ∀ line ∈ lines, '\n' ∉ line) (single' : ∀ line ∈ lines', '\n' ∉ line) :
    collapseBlankLines (joinLines lines) = collapseBlankLines (joinLines lines') := by
  by_cases none_ : lines = []
  · subst none_
    cases resemble
    rfl
  · have some' : lines' ≠ [] := by
      rintro rfl
      cases resemble
      exact none_ rfl
    unfold collapseBlankLines splitLines joinLines
    rw [List.splitOn_intercalate _ single none_, List.splitOn_intercalate _ single' some',
      collapseLoop_resembles resemble]

/-- The rest of an output that adds nothing but blanks makes no difference to the
answer. -/
theorem extractResponse_trails {buf rest : Text} (trails : Trails buf rest) (command : Text) :
    extractResponse (buf ++ rest) command = extractResponse buf command := by
  obtain ⟨gap, blank, behind⟩ := trails.behind
  have text : normalizeNewlines (stripANSI (buf ++ rest)) =
      normalizeNewlines (stripANSI buf) ++ gap := by
    rw [behind, normalizeNewlines_append_blank blank]
  obtain ⟨front, last, lines, lines'⟩ :=
    splitLines_append_blank blank (normalizeNewlines (stripANSI buf))
  rw [← text] at lines'
  have resemble : List.Forall₂ Resembles (front ++ [last ++ gap]) (front ++ [last]) := by
    refine List.rel_append (List.forall₂_same.mpr fun _ _ => ⟨rfl, rfl⟩)
      (.cons ⟨trimSpace_append_blank blank last, isPromptOnlyLine_append_blank blank last⟩ .nil)
  have single : ∀ line ∈ front ++ [last], '\n' ∉ line :=
    fun line listed => notMem_splitLines (lines ▸ listed)
  have single' : ∀ line ∈ front ++ [last ++ gap], '\n' ∉ line :=
    fun line listed => notMem_splitLines (lines' ▸ listed)
  rw [extractResponse_eq lines, extractResponse_eq lines', answerStart_resembles resemble,
    promptIndex_resembles resemble, text, trimSpace_append_blank blank]
  refine if_congr Iff.rfl rfl (collapse_resembles ?_ ?_ ?_)
  · exact List.forall₂_drop _ (List.forall₂_take _ resemble)
  · exact fun line listed => single' line (List.mem_of_mem_take (List.mem_of_mem_drop listed))
  · exact fun line listed => single line (List.mem_of_mem_take (List.mem_of_mem_drop listed))

/-- A reader that stops at the prompt leaves the window's title to come. -/
example : Trails
    "> look\r\n\x1b[37;1mWest of House\x1b[0m\r\nYou are standing in an open field.\r\n\r\n>".toList
    "\x1b]2;West of House  -  0/1\x07 ".toList := by
  decide +kernel

end Zorkbot.Pty
