/-
# Skipping an echo line by line

A command that the terminal breaks into fragments shows them on lines of their own, perhaps in
another letter case and with blank lines between them. The search for the echo compares in lower
case and without white space, and both of these look at one character at a time. So it sees the
same in such lines as in the fragments themselves.
-/

import Mathlib.Data.List.Forall2
import Zorkbot.Bot.Sanitize
import Zorkbot.Pty.Extract

namespace Zorkbot.Pty

open Go
open Zorkbot.Bot (toLowerChar_eq_symbol)

/-! ## White space and letter case -/

/-- The code points of white space. -/
def spaces : List Nat :=
  [9, 10, 11, 12, 13, 0x20, 0x85, 0xA0, 0x1680, 0x2000, 0x2001, 0x2002, 0x2003, 0x2004, 0x2005,
    0x2006, 0x2007, 0x2008, 0x2009, 0x200A, 0x2028, 0x2029, 0x202F, 0x205F, 0x3000]

theorem isSpace_iff (c : Char) : isSpace c = true ↔ c.toNat ∈ spaces := by
  simp only [isSpace, spaces, List.mem_cons, List.not_mem_nil, or_false, Bool.or_eq_true,
    Bool.and_eq_true, decide_eq_true_eq, beq_iff_eq]
  omega

theorem mem_spaces_of_ofNat {n : Nat} (space : isSpace (Char.ofNat n) = true) : n ∈ spaces := by
  by_cases valid : n.isValidChar
  · rwa [isSpace_iff, Bot.toNat_ofNat_of_valid valid] at space
  · rw [Char.ofNat, dif_neg valid] at space
    exact absurd space (by decide)

/-- No range of letters touches white space, before or after it is mapped. -/
theorem lowerRanges_spaceless : ∀ r ∈ lowerRanges, ∀ n ∈ spaces,
    ¬ (r.lo ≤ n ∧ n ≤ r.hi) ∧ ¬ (r.lo + r.delta ≤ n ∧ n ≤ r.hi + r.delta) := by
  decide +kernel

theorem isSpace_asciiLower : ∀ n < 128,
    isSpace (asciiLower (Char.ofNat n)) = isSpace (Char.ofNat n) := by
  decide +kernel

theorem isSpace_toLowerChar (c : Char) : isSpace (toLowerChar c) = isSpace c := by
  unfold toLowerChar
  split
  · next ascii =>
      have same := isSpace_asciiLower c.toNat ascii
      rwa [Char.ofNat_toNat] at same
  · cases mapped : lowerRanges.findSome? (·.map c.toNat) with
    | none => rfl
    | some n =>
        obtain ⟨r, listed, image⟩ := List.exists_of_findSome?_eq_some mapped
        unfold CaseRange.map at image
        split at image
        · next inside =>
            rw [Option.some.injEq] at image
            have before : isSpace c = false := by
              rw [Bool.eq_false_iff, Ne, isSpace_iff]
              exact fun space => (lowerRanges_spaceless r listed _ space).1 ⟨inside.1, inside.2.1⟩
            rw [before, Bool.eq_false_iff]
            intro space
            have there := mem_spaces_of_ofNat space
            have positive : n ≠ 0 := fun zero => absurd (zero ▸ there) (by decide)
            refine (lowerRanges_spaceless r listed n there).2 ?_
            omega
        · cases image

theorem toLower_trimSpace (t : Text) : toLower (trimSpace t) = trimSpace (toLower t) := by
  have spaces : isSpace ∘ toLowerChar = isSpace := funext isSpace_toLowerChar
  simp only [toLower, trimSpace, trimRightFunc, List.dropWhile_map, spaces, ← List.map_reverse]

theorem squeeze_toLower (t : Text) : squeeze (toLower t) = normalizeEcho t := by
  rw [normalizeEcho, squeeze, squeeze, toLower, toLower, List.filter_map]
  congr 2
  funext c
  rw [Function.comp_apply, isSpace_toLowerChar]

theorem toLower_eq_nil_iff {t : Text} : toLower t = [] ↔ t = [] := List.map_eq_nil_iff

/-! ## Lines in another letter case -/

/-- The same text when both are trimmed and put in lower case, character by character as Go
does. -/
def Alike (s t : Text) : Prop := toLower (trimSpace s) = toLower (trimSpace t)

variable {s t wanted echo echo' line line' fragment command : Text} {i : Nat}
  {fragments lines lines' rest rest' : List Text}

theorem Alike.refl (t : Text) : Alike t t := rfl

theorem normalizeEcho_congr_lower (same : toLower s = toLower t) :
    normalizeEcho s = normalizeEcho t := by
  rw [← squeeze_toLower, same, squeeze_toLower]

theorem Alike.normalizeEcho (alike : Alike s t) :
    Pty.normalizeEcho s = Pty.normalizeEcho t := by
  rw [← normalizeEcho_trimSpace, normalizeEcho_congr_lower alike, normalizeEcho_trimSpace]

theorem nil_iff_of_lower (same : toLower s = toLower t) : s = [] ↔ t = [] := by
  rw [← toLower_eq_nil_iff, same, toLower_eq_nil_iff]

/-- A prompt is no letter. -/
theorem head_of_lower (same : toLower s = toLower t) (prompt : s.head? = some '>') :
    t.head? = some '>' := by
  have head := congrArg List.head? same
  rw [toLower, toLower, List.head?_map, List.head?_map, prompt] at head
  cases first : t.head? with
  | none => rw [first] at head; cases head
  | some c =>
      rw [first] at head
      have lowered : toLowerChar c = '>' := (Option.some.inj head).symm
      rw [toLowerChar_eq_symbol (by decide) lowered]

theorem echoContent_of_plain (plain : t.head? ≠ some '>') : echoContent t = t := by
  rw [echoContent, if_neg (mt hasPrefix_prompt.mp plain)]

theorem echoContent_lower (same : toLower s = toLower t) :
    toLower (echoContent s) = toLower (echoContent t) := by
  by_cases prompt : s.head? = some '>'
  · obtain ⟨u, rfl⟩ := List.head?_eq_some_iff.mp prompt
    obtain ⟨v, rfl⟩ := List.head?_eq_some_iff.mp (head_of_lower same prompt)
    have behind : toLower u = toLower v := (List.cons.inj same).2
    rw [echoContent_prompt, echoContent_prompt, toLower_trimSpace, behind, ← toLower_trimSpace]
  · rw [echoContent_of_plain prompt, echoContent_of_plain (mt (head_of_lower same.symm) prompt),
      same]

/-- The search sees no more of the first line than what it takes for the echo, in lower case. -/
theorem skipEchoLoop_opens
    (later : ∀ {echo echo' : Text}, toLower echo = toLower echo' →
      skipEchoLoop wanted (i + 1) echo rest = skipEchoLoop wanted (i + 1) echo' rest')
    (some : trimSpace line ≠ []) (some' : trimSpace line' ≠ [])
    (same : toLower (echoContent (trimSpace line)) = toLower (echoContent (trimSpace line'))) :
    skipEchoLoop wanted i [] (line :: rest) = skipEchoLoop wanted i [] (line' :: rest') := by
  have nothing := nil_iff_of_lower same
  rw [skipEchoLoop_first some, skipEchoLoop_first some', normalizeEcho_congr_lower same,
    later same, if_congr nothing rfl rfl]

/-- The search takes the same way through lines that are alike. -/
theorem skipEchoLoop_alike (alike : List.Forall₂ Alike lines lines')
    (heard : toLower echo = toLower echo') :
    skipEchoLoop wanted i echo lines = skipEchoLoop wanted i echo' lines' := by
  induction alike generalizing i echo echo' with
  | nil => rfl
  | @cons line line' rest rest' alike _ ih =>
      by_cases none : echo = []
      · have none' : echo' = [] := (nil_iff_of_lower heard).mp none
        subst none none'
        by_cases blank : trimSpace line = []
        · have blank' : trimSpace line' = [] := (nil_iff_of_lower alike).mp blank
          rw [skipEchoLoop_blank blank, skipEchoLoop_blank blank']
          exact ih rfl
        · exact skipEchoLoop_opens ih blank (mt (nil_iff_of_lower alike).mpr blank)
            (echoContent_lower alike)
      · have some' : echo' ≠ [] := mt (nil_iff_of_lower heard).mpr none
        have grown : toLower (echo ++ trimSpace line) = toLower (echo' ++ trimSpace line') := by
          simp only [toLower, List.map_append]
          exact congrArg₂ _ heard alike
        rw [skipEchoLoop_next none, skipEchoLoop_next some', normalizeEcho_congr_lower heard,
          alike.normalizeEcho, ih grown]

/-! ## Fragments on lines -/

/-- Some lines show the fragments of a text, each on one of them. -/
inductive Laid : List Text → List Text → Prop
  | last {fragment line : Text} (alike : Alike line fragment) (some : trimSpace fragment ≠ []) :
      Laid [fragment] [line]
  | blank {fragments lines : List Text} {line : Text} (blank : trimSpace line = [])
      (later : Laid fragments lines) : Laid fragments (line :: lines)
  | next {fragment line : Text} {fragments lines : List Text} (alike : Alike line fragment)
      (some : trimSpace fragment ≠ []) (later : Laid fragments lines) :
      Laid (fragment :: fragments) (line :: lines)

/-- A line shows the first fragment, perhaps after a prompt. -/
def Begins (line fragment : Text) : Prop :=
  Alike line fragment ∨ ∃ behind, trimSpace line = '>' :: behind ∧ Alike behind fragment

/-- Some lines show the fragments of a command, and nothing follows the last of them. -/
inductive LaidOut : List Text → List Text → Prop
  | blank {fragments lines : List Text} {line : Text} (blank : trimSpace line = [])
      (later : LaidOut fragments lines) : LaidOut fragments (line :: lines)
  | whole {fragment line : Text} (begins : Begins line fragment)
      (some : trimSpace fragment ≠ []) : LaidOut [fragment] [line]
  | broken {fragment line : Text} {fragments lines : List Text} (begins : Begins line fragment)
      (some : trimSpace fragment ≠ []) (later : Laid fragments lines) :
      LaidOut (fragment :: fragments) (line :: lines)

/-- With each line replaced by its fragment the text itself is shown. -/
theorem Laid.shows (laid : Laid fragments lines) :
    ∃ plain, List.Forall₂ Alike lines plain ∧ Shows fragments.flatten plain := by
  induction laid with
  | @last fragment line alike some =>
      refine ⟨[fragment], .cons alike .nil, ?_⟩
      rw [List.flatten_singleton]
      exact .last rfl some
  | @blank fragments lines line blank _ ih =>
      obtain ⟨plain, alike, shown⟩ := ih
      exact ⟨line :: plain, .cons (.refl line) alike, .blank blank shown⟩
  | @next fragment line fragments lines same some _ ih =>
      obtain ⟨plain, alike, shown⟩ := ih
      exact ⟨fragment :: plain, .cons same alike, .piece rfl some shown⟩

theorem Begins.content (begins : Begins line fragment)
    (plain : (trimSpace fragment).head? ≠ some '>') :
    toLower (echoContent (trimSpace line)) = toLower (echoContent (trimSpace fragment)) := by
  rw [echoContent_of_plain plain]
  rcases begins with alike | ⟨behind, line_, alike⟩
  · rwa [echoContent_of_plain (mt (head_of_lower alike) plain)]
  · rwa [line_, echoContent_prompt]

theorem Begins.some (begins : Begins line fragment) (some : trimSpace fragment ≠ []) :
    trimSpace line ≠ [] := by
  rcases begins with alike | ⟨behind, line_, -⟩
  · exact mt (nil_iff_of_lower alike).mp some
  · rw [line_]
    exact List.cons_ne_nil _ _

theorem alike_append (alike : List.Forall₂ Alike lines lines') (tail : List Text) :
    List.Forall₂ Alike (lines ++ tail) (lines' ++ tail) :=
  List.rel_append alike (List.forall₂_same.mpr fun line _ => .refl line)

theorem LaidOut.skipEchoLoop (laid : LaidOut fragments lines)
    (plain : (trimSpace fragments.flatten).head? ≠ some '>') (tail : List Text) (i : Nat) :
    Pty.skipEchoLoop (Pty.normalizeEcho fragments.flatten) i [] (lines ++ tail) =
      i + lines.length := by
  induction laid generalizing i with
  | blank blank _ ih =>
      rw [List.cons_append, skipEchoLoop_blank blank, ih plain, List.length_cons]
      omega
  | @whole fragment line begins some =>
      rw [List.flatten_singleton] at plain ⊢
      have same (lines : List Text) {echo echo' : Text} (heard : toLower echo = toLower echo') :
          Pty.skipEchoLoop (Pty.normalizeEcho fragment) (i + 1) echo lines =
            Pty.skipEchoLoop (Pty.normalizeEcho fragment) (i + 1) echo' lines :=
        skipEchoLoop_alike (List.forall₂_same.mpr fun line _ => .refl line) heard
      have shown : Echo false fragment [fragment] := .whole rfl some
      rw [List.singleton_append, skipEchoLoop_opens (same tail) (begins.some some) some
        (begins.content plain)]
      exact skipEchoLoop_echo shown (.inr plain) tail i
  | @broken fragment line fragments lines begins some later =>
      obtain ⟨canon, alike, shows_⟩ := later.shows
      have same {echo echo' : Text} (heard : toLower echo = toLower echo') :
          Pty.skipEchoLoop (Pty.normalizeEcho (fragment :: fragments).flatten) (i + 1) echo
              (lines ++ tail) =
            Pty.skipEchoLoop (Pty.normalizeEcho (fragment :: fragments).flatten) (i + 1) echo'
              (canon ++ tail) :=
        skipEchoLoop_alike (alike_append alike tail) heard
      have first : (trimSpace fragment).head? ≠ .some '>' := by
        rwa [List.flatten_cons, head_trimSpace_append some] at plain
      have shown : Echo false (fragment ++ fragments.flatten) (fragment :: canon) :=
        .broken rfl some shows_
      rw [List.cons_append, skipEchoLoop_opens same (begins.some some) some (begins.content first),
        ← List.cons_append, List.flatten_cons, skipEchoLoop_echo shown (.inr plain) tail i,
        List.length_cons, List.length_cons, alike.length_eq]

theorem LaidOut.some (laid : LaidOut fragments lines) : trimSpace fragments.flatten ≠ [] := by
  induction laid with
  | blank _ _ ih => exact ih
  | whole _ some =>
      rw [List.flatten_singleton]
      exact some
  | broken _ some _ =>
      rw [List.flatten_cons]
      exact trimSpace_append_ne_nil some _

/-- However a command is cut into fragments that can be seen, and on whatever lines that are the
same in lower case they are shown, the echo ends with the line of the last one. -/
theorem echo_is_skipped (split : fragments.flatten = command) (laid : LaidOut fragments lines)
    (plain : (trimSpace command).head? ≠ some '>') (further : List Text) :
    skipCommandEcho (lines ++ further) command = lines.length := by
  subst split
  rw [skipCommandEcho_eq laid.some, laid.skipEchoLoop plain, Nat.zero_add]

/-- A prompt, a command cut within a word and shown in capital letters, and a blank line. -/
theorem echo_is_skipped_take :
    skipCommandEcho (["> TA".toList, "  ".toList, "KE Sack ".toList] ++ [">".toList])
      "take sack".toList = 3 := by
  have laid : LaidOut ["ta".toList, "ke sack".toList]
      ["> TA".toList, "  ".toList, "KE Sack ".toList] := by
    refine .broken (.inr ⟨" TA".toList, by decide, ?_⟩) (by decide)
      (.blank (by decide) (.last ?_ (by decide)))
    · exact show toLower _ = toLower _ by decide
    · exact show toLower _ = toLower _ by decide
  exact echo_is_skipped (by decide) laid (by decide) [">".toList]

end Zorkbot.Pty
