/-
# Cutting an answer out of the terminal's output

The terminal shows the command that was written, the interpreter's answer and the
next prompt. Where the echo is found, what stands between it and the last prompt
is the answer.

An answer without any line leaves nothing there, which is taken for a mistake:
then everything is returned. And where the echo is missed, the result has more
ink than the answer, or less.
-/

import Zorkbot.Pty.Echo

namespace Zorkbot.Pty

open Go

/-! ## The answer -/

theorem promptIndex_front {front : List Text} {prompt : Text}
    (ends : isPromptOnlyLine prompt = true) {start : Nat} (inside : start ≤ front.length) :
    promptIndex (front ++ [prompt]) start = front.length := by
  have lines : (front ++ [prompt]).length - start = (front.length - start) + 1 := by
    rw [List.length_append, List.length_singleton]
    omega
  have last : start + 1 * (front.length - start) = front.length := by omega
  rw [promptIndex, lines, List.range'_concat, List.reverse_append, List.reverse_singleton,
    List.singleton_append, last, List.find?_cons_of_pos]
  · rfl
  · simpa using ends

theorem promptIndex_behind {lines : List Text} {start : Nat} (outside : lines.length ≤ start) :
    promptIndex lines start = lines.length := by
  rw [promptIndex, Nat.sub_eq_zero_of_le outside]
  rfl

/-- Where the answer is taken to begin. -/
def answerStart (lines : List Text) (command : Text) : Nat :=
  if skipCommandEcho lines command = 0 then skipCommandEchoLine lines command
  else skipCommandEcho lines command

theorem Echo.some {prompted : Bool} {command : Text} {lines : List Text}
    (shown : Echo prompted command lines) : trimSpace command ≠ [] := by
  induction shown with
  | blank _ _ ih => exact ih
  | whole _ some => exact some
  | broken _ some _ => exact trimSpace_append_ne_nil some _

theorem skipCommandEcho_eq {command : Text} (some : trimSpace command ≠ []) (lines : List Text) :
    skipCommandEcho lines command = skipEchoLoop (normalizeEcho command) 0 [] lines := by
  rw [skipCommandEcho, if_neg some, normalizeEcho_trimSpace]

theorem answerStart_told {prompted : Bool} {command : Text} {echo : List Text}
    (shown : Echo prompted command echo)
    (told : prompted = true ∨ (trimSpace command).head? ≠ some '>') (tail : List Text) :
    answerStart (echo ++ tail) command = echo.length := by
  have found : skipCommandEcho (echo ++ tail) command = echo.length := by
    rw [skipCommandEcho_eq shown.some, skipEchoLoop_echo shown told, Nat.zero_add]
  have lines : echo.length ≠ 0 := fun none_ => by
    have seen := ink_echo_pos shown
    rw [List.length_eq_zero_iff.mp none_] at seen
    simp [ink] at seen
  rw [answerStart, found, if_neg lines]

theorem answerStart_untold {command : Text} {echo : List Text} (shown : Echo false command echo)
    (lost : (trimSpace command).head? = some '>') (tail : List Text) :
    answerStart (echo ++ tail) command = 0 ∨
      ink echo < ink ((echo ++ tail).take (answerStart (echo ++ tail) command)) := by
  unfold answerStart
  split
  · by_cases second : skipCommandEchoLine (echo ++ tail) command = 0
    · exact .inl second
    · exact .inr (skipCommandEchoLine_late shown tail second)
  · next first =>
      rw [skipCommandEcho_eq shown.some] at first ⊢
      obtain ⟨n, stops, collected⟩ := skipEchoLoop_untold shown lost tail first
      refine .inr ?_
      rw [stops, Nat.zero_add, collected, length_normalizeEcho, ink_echo shown]
      exact Nat.lt_succ_self _

theorem extractResponse_eq {raw command : Text} {lines : List Text}
    (output : splitLines (normalizeNewlines (stripANSI raw)) = lines) :
    extractResponse raw command =
      if promptIndex lines (answerStart lines command) ≤ answerStart lines command then
        collapseBlankLines (trimSpace (normalizeNewlines (stripANSI raw)))
      else
        collapseBlankLines (joinLines
          ((lines.take (promptIndex lines (answerStart lines command))).drop
            (answerStart lines command))) := by
  subst output
  rfl

section

variable {raw command prompt : Text} {echo body : List Text}

/-- An echo that is found is cut off, and what stands before the prompt is the
answer, unless that is nothing at all. -/
theorem extractResponse_found (ends : isPromptOnlyLine prompt = true)
    (output : splitLines (normalizeNewlines (stripANSI raw)) = echo ++ body ++ [prompt])
    (start : answerStart (echo ++ body ++ [prompt]) command = echo.length) :
    extractResponse raw command =
      if body = [] then collapseBlankLines (trimSpace (normalizeNewlines (stripANSI raw)))
      else collapseBlankLines (joinLines body) := by
  have finish : promptIndex (echo ++ body ++ [prompt]) echo.length = (echo ++ body).length :=
    promptIndex_front ends (by simp)
  rw [extractResponse_eq output, start, finish, List.length_append]
  by_cases none_ : body = []
  · simp [none_]
  · have some : 0 < body.length := List.length_pos_of_ne_nil none_
    rw [if_neg (by omega), if_neg none_, List.append_assoc, ← List.append_assoc,
      ← List.length_append, List.take_left, List.drop_left]

/-- An echo that is missed leaves more of the output than the answer, or less. -/
theorem extractResponse_lost (ends : isPromptOnlyLine prompt = true)
    (output : splitLines (normalizeNewlines (stripANSI raw)) = echo ++ body ++ [prompt])
    (seen : 0 < ink echo)
    (start : answerStart (echo ++ body ++ [prompt]) command = 0 ∨
      ink echo < ink ((echo ++ body ++ [prompt]).take
        (answerStart (echo ++ body ++ [prompt]) command))) :
    (squeeze (extractResponse raw command)).length ≠ ink body := by
  rw [extractResponse_eq output]
  generalize answerStart (echo ++ body ++ [prompt]) command = from_ at start
  split
  · rw [squeeze_collapseBlankLines, squeeze_trimSpace, ← flatMap_splitLines, output]
    change ink (echo ++ body ++ [prompt]) ≠ ink body
    rw [ink_append, ink_append]
    omega
  · next before =>
      rw [squeeze_collapseBlankLines, squeeze_joinLines]
      change ink (((echo ++ body ++ [prompt]).take _).drop from_) ≠ ink body
      have inside : from_ ≤ (echo ++ body).length := by
        by_contra outside
        have behind : (echo ++ body ++ [prompt]).length ≤ from_ := by
          rw [List.length_append, List.length_singleton]
          omega
        rw [promptIndex_behind behind] at before
        exact before behind
      rw [promptIndex_front ends inside, List.take_left]
      have cut := congrArg ink (List.take_append_drop from_ (echo ++ body))
      rw [List.take_append_of_le_length inside] at start
      rw [ink_append, ink_append] at cut
      rcases start with rfl | late
      · rw [List.drop_zero, ink_append]
        omega
      · omega

/-- For every command, every way the terminal may show its echo, every answer and
every prompt, the answer is extracted exactly when it has a line at all and the
echo has the old prompt or does not look as if it had. -/
theorem extracts_answer_iff {prompted : Bool} (shown : Echo prompted command echo)
    (ends : isPromptOnlyLine prompt = true)
    (output : splitLines (normalizeNewlines (stripANSI raw)) = echo ++ body ++ [prompt]) :
    extractResponse raw command = collapseBlankLines (joinLines body) ↔
      body ≠ [] ∧ (prompted = true ∨ (trimSpace command).head? ≠ some '>') := by
  have inked (same : extractResponse raw command = collapseBlankLines (joinLines body)) :
      (squeeze (extractResponse raw command)).length = ink body := by
    rw [same, squeeze_collapseBlankLines, squeeze_joinLines]
    rfl
  by_cases told : prompted = true ∨ (trimSpace command).head? ≠ some '>'
  · have start := answerStart_told shown told (body ++ [prompt])
    rw [← List.append_assoc] at start
    have found := extractResponse_found ends output start
    by_cases none_ : body = []
    · refine iff_of_false (fun same => ?_) fun both => both.1 none_
      have seen := ink_echo_pos shown
      have whole := inked same
      rw [found, if_pos none_, squeeze_collapseBlankLines, squeeze_trimSpace, ← flatMap_splitLines,
        output, none_] at whole
      change ink (echo ++ [] ++ [prompt]) = ink [] at whole
      rw [ink_append, ink_append] at whole
      have nothing : ink [] = 0 := rfl
      omega
    · exact iff_of_true (by rw [found, if_neg none_]) ⟨none_, told⟩
  · refine iff_of_false (fun same => ?_) fun both => told both.2
    rw [not_or, not_not] at told
    obtain ⟨unprompted, lost⟩ := told
    have unprompted : prompted = false := by simpa using unprompted
    subst unprompted
    have start := answerStart_untold shown lost (body ++ [prompt])
    rw [← List.append_assoc] at start
    exact extractResponse_lost ends output (ink_echo_pos shown) start (inked same)

end

/-- A command of two words, broken in the first. -/
theorem extracts_answer_iff_take :
    extractResponse "> ta\r\nke sack\r\nTaken.\r\n\r\n> ".toList "take sack".toList =
      collapseBlankLines (joinLines ["Taken.".toList, []]) := by
  have shown : Echo true ("ta".toList ++ "ke sack".toList) ["> ta".toList, "ke sack".toList] :=
    .broken ⟨" ta".toList, by decide, by decide⟩ (by decide) (.last (by decide) (by decide))
  have output : splitLines (normalizeNewlines
      (stripANSI "> ta\r\nke sack\r\nTaken.\r\n\r\n> ".toList)) =
      ["> ta".toList, "ke sack".toList] ++ ["Taken.".toList, []] ++ ["> ".toList] := by decide
  exact (extracts_answer_iff shown (by decide) output).mpr ⟨by simp, .inl rfl⟩

/-- The game answers with nothing, and the player is shown the command and the
prompt. -/
theorem nothing_is_not_extracted :
    Sanitize.validate "look".toList false = true ∧ Echo false "look".toList ["look".toList] ∧
      isPromptOnlyLine ">".toList = true ∧
      splitLines (normalizeNewlines (stripANSI "look\r\n>".toList)) =
        ["look".toList] ++ [] ++ [">".toList] ∧
      extractResponse "look\r\n>".toList "look".toList ≠ collapseBlankLines (joinLines []) :=
  ⟨by decide, .whole (show trimSpace _ = trimSpace _ by decide) (by decide), by decide, by decide,
    by decide⟩

example : extractResponse ">look\r\nKitchen\r\n>".toList ">look".toList =
    ">look\nKitchen".toList := by decide

end Zorkbot.Pty
