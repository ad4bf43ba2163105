/-
# What can be seen of a text

The white space of a text is what its trimming, its splitting into lines and the
collapsing of its blank lines may change. All of these keep its ink: the
characters that can be seen, in their order.
-/

import Zorkbot.Data.Words
import Zorkbot.Pty.Sanitize
import Zorkbot.Pty.Text

namespace Zorkbot.Pty

open Go

theorem squeeze_eq (t : Text) : squeeze t = (Words.split isSpace t).flatten :=
  (Words.flatten_split t).symm

theorem squeeze_append (s t : Text) : squeeze (s ++ t) = squeeze s ++ squeeze t :=
  List.filter_append ..

@[simp]
theorem squeeze_trimSpace (t : Text) : squeeze (trimSpace t) = squeeze t := by
  rw [squeeze_eq, trimSpace, trimRightFunc, Words.split_rdropWhile, Words.split_dropWhile,
    squeeze_eq]

theorem squeeze_joinLines (lines : List Text) :
    squeeze (joinLines lines) = lines.flatMap squeeze := by
  rw [squeeze_eq, joinLines, Words.split_intercalate (by decide)]
  induction lines with
  | nil => rfl
  | cons line rest ih =>
      rw [List.flatMap_cons, List.flatten_append, ih, ← squeeze_eq, List.flatMap_cons]

theorem flatMap_splitLines (t : Text) : (splitLines t).flatMap squeeze = squeeze t := by
  rw [← squeeze_joinLines, joinLines, splitLines, List.intercalate_splitOn]

theorem trimSpace_eq_nil_iff {t : Text} : trimSpace t = [] ↔ squeeze t = [] := by
  constructor
  · intro blank
    rw [← squeeze_trimSpace, blank]
    rfl
  · intro blank
    have all : ∀ c ∈ t, isSpace c = true := by simpa [squeeze] using blank
    rw [trimSpace, List.dropWhile_eq_nil_iff.mpr all]
    rfl

theorem squeeze_congr {s t : Text} (same : trimSpace s = trimSpace t) : squeeze s = squeeze t := by
  rw [← squeeze_trimSpace, same, squeeze_trimSpace]

theorem trimSpace_append_ne_nil {s : Text} (some : trimSpace s ≠ []) (t : Text) :
    trimSpace (s ++ t) ≠ [] := by
  rw [Ne, trimSpace_eq_nil_iff, squeeze_append, List.append_eq_nil_iff, not_and]
  exact fun nothing => absurd (trimSpace_eq_nil_iff.mpr nothing) some

/-- Trimmed text starts with the first character that can be seen. -/
theorem head_trimSpace (t : Text) : (trimSpace t).head? = (squeeze t).head? := by
  rw [← squeeze_trimSpace]
  have settled := Sanitize.dropWhile_trimSpace t
  cases trimmed : trimSpace t with
  | nil => rfl
  | cons c rest =>
      have seen : isSpace c = false := by
        by_contra space
        rw [trimmed, List.dropWhile_cons_of_pos (by simpa using space)] at settled
        have shorter := (List.dropWhile_suffix (l := rest) isSpace).length_le
        rw [settled, List.length_cons] at shorter
        omega
      simp [squeeze, seen]

section

variable {α : Type} (p : α → Bool)

theorem length_dropWhile_le_append (u v : List α) :
    (u.dropWhile p).length ≤ ((u ++ v).dropWhile p).length := by
  rw [List.dropWhile_append]
  split
  · next none_ => simp [List.isEmpty_iff.mp none_]
  · simp

theorem length_dropWhile_le_prepend (u v : List α) :
    (v.dropWhile p).length ≤ ((u ++ v).dropWhile p).length := by
  rw [List.dropWhile_append]
  split
  · exact Nat.le_refl _
  · have shorter := (List.dropWhile_suffix (l := v) p).length_le
    rw [List.length_append]
    omega

end

/-- What stands before or after a text does not make it shorter when both are
trimmed. -/
theorem length_trimSpace_le_prepend (before t : Text) :
    (trimSpace t).length ≤ (trimSpace (before ++ t)).length := by
  obtain ⟨x, whole⟩ : ∃ x, (before ++ t).dropWhile isSpace = x ++ t.dropWhile isSpace := by
    rw [List.dropWhile_append]
    split
    · exact ⟨[], rfl⟩
    · refine ⟨before.dropWhile isSpace ++ t.takeWhile isSpace, ?_⟩
      rw [List.append_assoc, List.takeWhile_append_dropWhile]
  have longer := length_dropWhile_le_append isSpace (t.dropWhile isSpace).reverse x.reverse
  simpa [trimSpace, trimRightFunc, whole] using longer

theorem length_trimSpace_le_append (t behind : Text) :
    (trimSpace t).length ≤ (trimSpace (t ++ behind)).length := by
  by_cases blank : t.dropWhile isSpace = []
  · simp [trimSpace, trimRightFunc, blank]
  · have whole : (t ++ behind).dropWhile isSpace = t.dropWhile isSpace ++ behind := by
      rw [List.dropWhile_append, if_neg (by simpa using blank)]
    have longer := length_dropWhile_le_prepend isSpace behind.reverse (t.dropWhile isSpace).reverse
    simpa [trimSpace, trimRightFunc, whole] using longer

theorem length_trimSpace_le (t : Text) : (trimSpace t).length ≤ t.length := by
  have left := (List.dropWhile_suffix (l := t) isSpace).length_le
  have right := (List.dropWhile_suffix (l := (t.dropWhile isSpace).reverse) isSpace).length_le
  rw [List.length_reverse] at right
  rw [trimSpace, trimRightFunc, List.length_reverse]
  exact right.trans left

/-- How many characters of some lines can be seen. -/
def ink (lines : List Text) : Nat := (lines.flatMap squeeze).length

@[simp]
theorem ink_append (front back : List Text) : ink (front ++ back) = ink front + ink back := by
  rw [ink, List.flatMap_append, List.length_append]
  rfl

theorem ink_cons (line : Text) (rest : List Text) :
    ink (line :: rest) = (squeeze line).length + ink rest := by
  rw [ink, List.flatMap_cons, List.length_append]
  rfl

theorem ink_pos {line : Text} (some : trimSpace line ≠ []) : 0 < (squeeze line).length :=
  List.length_pos_of_ne_nil (mt trimSpace_eq_nil_iff.mpr some)

/-- Collapsing blank lines and trimming keeps all that can be seen. -/
theorem flatMap_collapseLoop (out : List Text) (blank : Bool) (lines : List Text) :
    (collapseLoop out blank lines).flatMap squeeze =
      out.flatMap squeeze ++ lines.flatMap squeeze := by
  induction lines generalizing out blank with
  | nil => simp [collapseLoop]
  | cons line rest ih =>
      simp only [collapseLoop]
      split
      · next nothing =>
          have unseen : squeeze line = [] := trimSpace_eq_nil_iff.mp nothing
          split
          · simp only [ih, List.flatMap_append, List.flatMap_cons, List.flatMap_nil, unseen]
            simp [squeeze]
          · rw [ih, List.flatMap_cons, unseen, List.nil_append]
      · rw [ih, List.flatMap_append, List.flatMap_cons, List.flatMap_cons]
        simp

theorem squeeze_collapseBlankLines (t : Text) : squeeze (collapseBlankLines t) = squeeze t := by
  rw [collapseBlankLines, squeeze_trimSpace, squeeze_joinLines, flatMap_collapseLoop,
    flatMap_splitLines]
  rfl

end Zorkbot.Pty
