/-
# Finding the echo of a command

The terminal shows a command that was written, perhaps broken over several lines,
and perhaps after the prompt that was there before. `skipCommandEcho` collects
lines until they spell the command, white space and letter case aside.

It takes a prompt's character at the start of the first line for a prompt. So a
command that starts with that character, echoed without a prompt, loses it. What
is collected then spells the command too late, or never, and a second search, for
one line that is the prompt and the command, cannot find it in the echo either.
-/

import Zorkbot.Pty.Ink

namespace Zorkbot.Pty

open Go

/-! ## Echoes -/

theorem normalizeEcho_append (s t : Text) :
    normalizeEcho (s ++ t) = normalizeEcho s ++ normalizeEcho t := by
  rw [normalizeEcho, squeeze_append, toLower, List.map_append]
  rfl

@[simp]
theorem normalizeEcho_trimSpace (t : Text) : normalizeEcho (trimSpace t) = normalizeEcho t := by
  rw [normalizeEcho, squeeze_trimSpace]
  rfl

theorem normalizeEcho_congr {s t : Text} (same : trimSpace s = trimSpace t) :
    normalizeEcho s = normalizeEcho t := by
  rw [normalizeEcho, squeeze_congr same]
  rfl

@[simp]
theorem length_normalizeEcho (t : Text) : (normalizeEcho t).length = (squeeze t).length :=
  List.length_map ..

theorem normalizeEcho_eq_nil_iff {t : Text} : normalizeEcho t = [] ↔ trimSpace t = [] := by
  rw [trimSpace_eq_nil_iff, normalizeEcho, toLower, List.map_eq_nil_iff]

/-- Some lines show a text, cut into pieces with something to see on each. There
may be blank lines between them. -/
inductive Shows : Text → List Text → Prop
  | last {piece line : Text} (shows_ : trimSpace line = trimSpace piece)
      (some : trimSpace piece ≠ []) : Shows piece [line]
  | blank {text line : Text} {lines : List Text} (blank : trimSpace line = [])
      (later : Shows text lines) : Shows text (line :: lines)
  | piece {piece text line : Text} {lines : List Text} (shows_ : trimSpace line = trimSpace piece)
      (some : trimSpace piece ≠ []) (later : Shows text lines) :
      Shows (piece ++ text) (line :: lines)

/-- A line shows the first piece of an echo, after the old prompt if that is
still there. -/
def Opens (prompted : Bool) (line piece : Text) : Prop :=
  match prompted with
  | true => ∃ rest, trimSpace line = '>' :: rest ∧ trimSpace rest = trimSpace piece
  | false => trimSpace line = trimSpace piece

/-- How the terminal shows a command that was written. -/
inductive Echo (prompted : Bool) : Text → List Text → Prop
  | blank {command line : Text} {lines : List Text} (blank : trimSpace line = [])
      (later : Echo prompted command lines) : Echo prompted command (line :: lines)
  | whole {command line : Text} (opens : Opens prompted line command)
      (some : trimSpace command ≠ []) : Echo prompted command [line]
  | broken {piece text line : Text} {lines : List Text} (opens : Opens prompted line piece)
      (some : trimSpace piece ≠ []) (later : Shows text lines) :
      Echo prompted (piece ++ text) (line :: lines)

theorem hasPrefix_prompt {t : Text} : hasPrefix t ['>'] = true ↔ t.head? = some '>' := by
  cases t with
  | nil => simp [hasPrefix]
  | cons c rest =>
      simp only [hasPrefix, List.isPrefixOf, Bool.and_true, beq_iff_eq, List.head?_cons,
        Option.some.injEq]
      exact eq_comm

theorem trimPrefix_prompt (rest : Text) : trimPrefix ('>' :: rest) ['>'] = rest := by
  rw [trimPrefix, if_pos (hasPrefix_prompt.mpr rfl)]
  rfl

theorem echoContent_prompt (rest : Text) : echoContent ('>' :: rest) = trimSpace rest := by
  rw [echoContent, if_pos (hasPrefix_prompt.mpr rfl), trimPrefix_prompt]

/-- An echo's first line gives its piece, unless it has no prompt and the piece
looks as if it had one. -/
theorem Opens.content {prompted : Bool} {line piece : Text} (opens : Opens prompted line piece)
    (told : prompted = true ∨ (trimSpace piece).head? ≠ some '>') :
    echoContent (trimSpace line) = trimSpace piece := by
  cases prompted with
  | true =>
      obtain ⟨rest, line_, same⟩ := opens
      rw [line_, echoContent_prompt, same]
  | false =>
      have line_ : trimSpace line = trimSpace piece := opens
      have plain : (trimSpace piece).head? ≠ some '>' := told.resolve_left (by simp)
      rw [line_, echoContent, if_neg (mt hasPrefix_prompt.mp plain)]

theorem Opens.some {prompted : Bool} {line piece : Text} (opens : Opens prompted line piece)
    (some : trimSpace piece ≠ []) : trimSpace line ≠ [] := by
  cases prompted with
  | true =>
      obtain ⟨rest, line_, -⟩ := opens
      simp [line_]
  | false =>
      have line_ : trimSpace line = trimSpace piece := opens
      rwa [line_]

theorem Shows.some {text : Text} {lines : List Text} (shown : Shows text lines) :
    trimSpace text ≠ [] := by
  induction shown with
  | last _ some => exact some
  | blank _ _ ih => exact ih
  | piece _ some _ _ => exact trimSpace_append_ne_nil some _

/-- The first piece that can be seen decides how a text starts. -/
theorem head_trimSpace_append {piece : Text} (some : trimSpace piece ≠ []) (text : Text) :
    (trimSpace (piece ++ text)).head? = (trimSpace piece).head? := by
  rw [head_trimSpace, head_trimSpace, squeeze_append,
    List.head?_append_of_ne_nil _ (mt trimSpace_eq_nil_iff.mpr some)]

/-! ## Where the echo ends -/

section

variable {wanted echo line : Text} {i : Nat} {rest : List Text}

/-- The loop before the echo has begun. -/
theorem skipEchoLoop_first (some : trimSpace line ≠ []) :
    skipEchoLoop wanted i [] (line :: rest) =
      if echoContent (trimSpace line) = [] then 0
      else if normalizeEcho (echoContent (trimSpace line)) = wanted then i + 1
      else if hasPrefix wanted (normalizeEcho (echoContent (trimSpace line))) = false then 0
      else skipEchoLoop wanted (i + 1) (echoContent (trimSpace line)) rest := by
  rw [skipEchoLoop]
  simp [some]

theorem skipEchoLoop_blank (blank : trimSpace line = []) :
    skipEchoLoop wanted i [] (line :: rest) = skipEchoLoop wanted (i + 1) [] rest := by
  rw [skipEchoLoop]
  simp [blank]

/-- The loop inside the echo. A blank line adds nothing to it. -/
theorem skipEchoLoop_next (some : echo ≠ []) :
    skipEchoLoop wanted i echo (line :: rest) =
      if normalizeEcho echo ++ normalizeEcho line = wanted then i + 1
      else if hasPrefix wanted (normalizeEcho echo ++ normalizeEcho line) = false then 0
      else skipEchoLoop wanted (i + 1) (echo ++ trimSpace line) rest := by
  have more : (if trimSpace line ≠ [] then echo ++ trimSpace line else echo) =
      echo ++ trimSpace line := by
    split
    · rfl
    · next blank => rw [not_not.mp blank, List.append_nil]
  rw [skipEchoLoop]
  simp only [some, if_false, more, normalizeEcho_append, normalizeEcho_trimSpace, Bool.not_eq_true']

end

theorem hasPrefix_append (s t : Text) : hasPrefix (s ++ t) s = true :=
  List.isPrefixOf_iff_prefix.mpr (List.prefix_append s t)

theorem skipEchoLoop_shows {text : Text} {lines : List Text} (shown : Shows text lines)
    (tail : List Text) (i : Nat) {echo : Text} (begun : echo ≠ []) :
    skipEchoLoop (normalizeEcho echo ++ normalizeEcho text) i echo (lines ++ tail) =
      i + lines.length := by
  -- What is still to be shown keeps the echo from matching too early.
  have unfinished {s t : Text} {lines : List Text} (later : Shows t lines) :
      s ≠ s ++ normalizeEcho t := fun same =>
    later.some (normalizeEcho_eq_nil_iff.mp (List.self_eq_append_right.mp same))
  induction shown generalizing echo i with
  | last shows_ some =>
      rw [List.singleton_append, skipEchoLoop_next begun, normalizeEcho_congr shows_, if_pos rfl]
      rfl
  | @blank text line lines blank later ih =>
      have nothing : normalizeEcho line = [] := normalizeEcho_eq_nil_iff.mpr blank
      rw [List.cons_append, skipEchoLoop_next begun, nothing, List.append_nil,
        if_neg (unfinished later), if_neg (by rw [hasPrefix_append]; simp), blank, List.append_nil,
        ih (i + 1) begun, List.length_cons]
      omega
  | @piece piece text line lines shows_ some later ih =>
      have grown : normalizeEcho (echo ++ trimSpace line) =
          normalizeEcho echo ++ normalizeEcho piece := by
        rw [normalizeEcho_append, normalizeEcho_trimSpace, normalizeEcho_congr shows_]
      have goes := ih (i + 1) (List.append_ne_nil_of_left_ne_nil begun (trimSpace line))
      rw [grown] at goes
      rw [List.cons_append, skipEchoLoop_next begun, normalizeEcho_congr shows_,
        normalizeEcho_append, ← List.append_assoc, if_neg (unfinished later),
        if_neg (by rw [hasPrefix_append]; simp), goes, List.length_cons]
      omega

/-- An echo is found when it has the old prompt, or does not look as if it had. -/
theorem skipEchoLoop_echo {prompted : Bool} {command : Text} {lines : List Text}
    (shown : Echo prompted command lines)
    (told : prompted = true ∨ (trimSpace command).head? ≠ some '>') (tail : List Text) (i : Nat) :
    skipEchoLoop (normalizeEcho command) i [] (lines ++ tail) = i + lines.length := by
  induction shown generalizing i with
  | @blank command line lines blank later ih =>
      rw [List.cons_append, skipEchoLoop_blank blank, ih told, List.length_cons]
      omega
  | whole opens some =>
      rw [List.singleton_append, skipEchoLoop_first (opens.some some), opens.content told,
        if_neg some, normalizeEcho_trimSpace, if_pos rfl]
      rfl
  | @broken piece text line lines opens some later =>
      have unfinished : normalizeEcho piece ≠ normalizeEcho piece ++ normalizeEcho text :=
        fun same => later.some (normalizeEcho_eq_nil_iff.mp (List.self_eq_append_right.mp same))
      rw [head_trimSpace_append some] at told
      have goes := skipEchoLoop_shows later tail (i + 1) some
      rw [normalizeEcho_trimSpace] at goes
      rw [List.cons_append, skipEchoLoop_first (opens.some some), opens.content told, if_neg some,
        normalizeEcho_trimSpace, normalizeEcho_append, if_neg unfinished,
        if_neg (by rw [hasPrefix_append]; simp), goes, List.length_cons]
      omega

/-! ## Where it is missed -/

/-- What the loop has collected when it stops spells the command. -/
theorem skipEchoLoop_ink {wanted echo : Text} {i : Nat} {lines : List Text} (begun : echo ≠ [])
    (found : skipEchoLoop wanted i echo lines ≠ 0) :
    ∃ n, skipEchoLoop wanted i echo lines = i + n ∧
      (squeeze echo).length + ink (lines.take n) = wanted.length := by
  induction lines generalizing echo i with
  | nil => simp [skipEchoLoop] at found
  | cons line rest ih =>
      rw [skipEchoLoop_next begun] at found ⊢
      split at found
      · next spelled =>
          refine ⟨1, if_pos spelled, ?_⟩
          rw [← spelled, List.length_append, length_normalizeEcho, length_normalizeEcho,
            List.take_succ_cons, ink_cons]
          simp [ink]
      · next unspelled =>
          split at found
          · simp at found
          · next goes =>
              obtain ⟨n, stops, collected⟩ := ih (List.append_ne_nil_of_left_ne_nil begun _) found
              refine ⟨n + 1, ?_, ?_⟩
              · rw [if_neg unspelled, if_neg goes, stops]
                omega
              · rw [List.take_succ_cons, ink_cons, ← collected, squeeze_append, squeeze_trimSpace,
                  List.length_append]
                omega

/-- An echo that loses its first character is found too late. -/
theorem skipEchoLoop_lost {wanted line r : Text} {i : Nat} {rest : List Text}
    (line_ : trimSpace line = '>' :: r) (found : skipEchoLoop wanted i [] (line :: rest) ≠ 0) :
    ∃ n, skipEchoLoop wanted i [] (line :: rest) = i + n ∧
      ink ((line :: rest).take n) = wanted.length + 1 := by
  have seen : (squeeze line).length = (squeeze r).length + 1 := by
    rw [← squeeze_trimSpace, line_, squeeze, List.filter_cons_of_pos (by decide), List.length_cons]
    rfl
  rw [skipEchoLoop_first (by simp [line_]), line_, echoContent_prompt] at found ⊢
  split at found
  · simp at found
  · next some =>
      split at found
      · next spelled =>
          refine ⟨1, by rw [if_neg some, if_pos spelled], ?_⟩
          rw [← spelled, length_normalizeEcho, squeeze_trimSpace, List.take_succ_cons, ink_cons,
            seen]
          simp [ink]
      · next unspelled =>
          split at found
          · simp at found
          · next goes =>
              obtain ⟨n, stops, collected⟩ := skipEchoLoop_ink some found
              refine ⟨n + 1, ?_, ?_⟩
              · rw [if_neg some, if_neg unspelled, if_neg goes, stops]
                omega
              · rw [squeeze_trimSpace] at collected
                rw [List.take_succ_cons, ink_cons, seen]
                omega

theorem skipEchoLoop_untold {wanted command : Text} {lines : List Text}
    (shown : Echo false command lines) (lost : (trimSpace command).head? = some '>')
    (tail : List Text) {i : Nat} (found : skipEchoLoop wanted i [] (lines ++ tail) ≠ 0) :
    ∃ n, skipEchoLoop wanted i [] (lines ++ tail) = i + n ∧
      ink ((lines ++ tail).take n) = wanted.length + 1 := by
  have prompt {line piece : Text} (opens : Opens false line piece)
      (head : (trimSpace piece).head? = some '>') : ∃ r, trimSpace line = '>' :: r := by
    have line_ : trimSpace line = trimSpace piece := opens
    rw [← line_] at head
    exact List.head?_eq_some_iff.mp head
  induction shown generalizing i with
  | @blank command line lines blank later ih =>
      rw [List.cons_append, skipEchoLoop_blank blank] at found ⊢
      obtain ⟨n, stops, collected⟩ := ih lost found
      refine ⟨n + 1, by omega, ?_⟩
      rw [List.take_succ_cons, ink_cons, trimSpace_eq_nil_iff.mp blank, collected]
      exact Nat.zero_add _
  | whole opens some =>
      obtain ⟨r, line_⟩ := prompt opens lost
      exact skipEchoLoop_lost line_ found
  | broken opens some later =>
      rw [head_trimSpace_append some] at lost
      obtain ⟨r, line_⟩ := prompt opens lost
      exact skipEchoLoop_lost line_ found

theorem ink_shows {text : Text} {lines : List Text} (shown : Shows text lines) :
    ink lines = (squeeze text).length := by
  induction shown with
  | last shows_ _ => simp [ink, squeeze_congr shows_]
  | blank blank _ ih => simp [ink_cons, trimSpace_eq_nil_iff.mp blank, ih]
  | piece shows_ _ _ ih =>
      rw [ink_cons, ih, squeeze_congr shows_, squeeze_append, List.length_append]

theorem ink_echo {command : Text} {lines : List Text} (shown : Echo false command lines) :
    ink lines = (squeeze command).length := by
  have same {line piece : Text} (opens : Opens false line piece) :
      squeeze line = squeeze piece := squeeze_congr opens
  induction shown with
  | blank blank _ ih => simp [ink_cons, trimSpace_eq_nil_iff.mp blank, ih]
  | whole opens _ => simp [ink, same opens]
  | broken opens _ later =>
      rw [ink_cons, ink_shows later, same opens, squeeze_append, List.length_append]

theorem ink_echo_pos {prompted : Bool} {command : Text} {lines : List Text}
    (shown : Echo prompted command lines) : 0 < ink lines := by
  induction shown with
  | blank _ _ ih => rw [ink_cons]; omega
  | whole opens some | broken opens some _ =>
      have seen := ink_pos (opens.some some)
      rw [ink_cons]
      omega

theorem length_shows {text : Text} {lines : List Text} (shown : Shows text lines) :
    ∀ line ∈ lines, (trimSpace line).length ≤ (trimSpace text).length := by
  induction shown with
  | last shows_ _ => simp [shows_]
  | blank blank _ ih => exact List.forall_mem_cons.mpr ⟨by simp [blank], ih⟩
  | @piece piece text line lines shows_ _ _ ih =>
      refine List.forall_mem_cons.mpr ⟨?_, fun line listed => ?_⟩
      · rw [shows_]
        exact length_trimSpace_le_append piece text
      · exact (ih line listed).trans (length_trimSpace_le_prepend piece text)

theorem length_echo {command : Text} {lines : List Text} (shown : Echo false command lines) :
    ∀ line ∈ lines, (trimSpace line).length ≤ (trimSpace command).length := by
  induction shown with
  | blank blank _ ih => exact List.forall_mem_cons.mpr ⟨by simp [blank], ih⟩
  | @whole command line opens _ =>
      have line_ : trimSpace line = trimSpace command := opens
      simp [line_]
  | @broken piece text line lines opens _ later =>
      have line_ : trimSpace line = trimSpace piece := opens
      refine List.forall_mem_cons.mpr ⟨?_, fun line listed => ?_⟩
      · rw [line_]
        exact length_trimSpace_le_append piece text
      · exact (length_shows later line listed).trans (length_trimSpace_le_prepend piece text)

/-- The second search finds a line that is longer than the command. -/
theorem skipEchoLineLoop_found {command : Text} {i : Nat} {lines : List Text}
    (found : skipEchoLineLoop command i lines ≠ 0) :
    ∃ before line behind, lines = before ++ line :: behind ∧
      skipEchoLineLoop command i lines = i + before.length + 1 ∧
      command.length < (trimSpace line).length := by
  induction lines generalizing i with
  | nil => simp [skipEchoLineLoop] at found
  | cons line rest ih =>
      simp only [skipEchoLineLoop] at found ⊢
      split at found
      · next matches_ =>
          refine ⟨[], line, rest, rfl, by rw [if_pos matches_]; rfl, ?_⟩
          rw [Bool.and_eq_true] at matches_
          obtain ⟨r, line_⟩ := List.head?_eq_some_iff.mp (hasPrefix_prompt.mp matches_.1)
          have folded := matches_.2
          rw [line_, trimPrefix_prompt, equalFold, beq_iff_eq] at folded
          have same := congrArg List.length folded
          rw [List.length_map, List.length_map] at same
          have shorter := length_trimSpace_le r
          rw [line_, List.length_cons]
          omega
      · next no =>
          obtain ⟨before, l, behind, rfl, stops, longer⟩ := ih found
          refine ⟨line :: before, l, behind, rfl, ?_, longer⟩
          rw [if_neg no, stops, List.length_cons]
          omega

/-- The second search stops after the echo. -/
theorem skipCommandEchoLine_late {command : Text} {echo : List Text}
    (shown : Echo false command echo) (tail : List Text)
    (found : skipCommandEchoLine (echo ++ tail) command ≠ 0) :
    ink echo < ink ((echo ++ tail).take (skipCommandEchoLine (echo ++ tail) command)) := by
  unfold skipCommandEchoLine at found ⊢
  obtain ⟨before, line, behind, whole, stops, longer⟩ := skipEchoLineLoop_found found
  have late : echo.length ≤ before.length := by
    by_contra early
    have listed : line ∈ echo := by
      have there : (echo ++ tail)[before.length]? = some line := by simp [whole]
      rw [List.getElem?_append_left (by omega)] at there
      exact List.mem_of_getElem? there
    have fits := length_echo shown line listed
    omega
  have some : trimSpace line ≠ [] := fun blank => by simp [blank] at longer
  obtain ⟨more, rfl⟩ : echo <+: before :=
    List.prefix_of_prefix_length_le (List.prefix_append echo tail)
      (whole ▸ List.prefix_append before _) late
  have taken : ((echo ++ more) ++ line :: behind).take (0 + (echo ++ more).length + 1) =
      echo ++ more ++ [line] := by
    rw [Nat.zero_add, List.take_length_add_append]
    rfl
  have seen := ink_pos some
  rw [stops, whole, taken, ink_append, ink_append, ink_cons]
  omega

end Zorkbot.Pty
