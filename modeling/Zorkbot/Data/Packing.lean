/-
# Filling lines with words

Words are put on lines in order, each on the current line while there is room. No other way to
keep the order and the width needs fewer lines, so a wider line never needs more of them. A
width that depends on the number of lines is found by filling again and again: the numbers
then only rise or only fall, and they are bounded.
-/

import Mathlib.Algebra.BigOperators.Group.List.Basic
import Mathlib.Algebra.GroupWithZero.Nat
import Mathlib.Order.Monotone.Basic

namespace Packing

universe u

variable {α : Type u} (size : α → Nat)

/-- The length of the words with one space between two of them. -/
def width (line : List α) : Nat := (line.map size).sum + (line.length - 1)

/-- A line is one word, or not too long. -/
structure Fits (limit : Nat) (line : List α) : Prop where
  some : line ≠ []
  short : line.length = 1 ∨ width size line ≤ limit

/-- The lines from the current one on. -/
def fill (limit : Nat) : List α → List α → List (List α)
  | line, [] => [line]
  | line, word :: words =>
      if width size (line ++ [word]) ≤ limit then fill limit (line ++ [word]) words
      else line :: fill limit [word] words

/-- All lines. -/
def greedy (limit : Nat) : List α → List (List α)
  | [] => []
  | word :: words => fill size limit [word] words

variable {size} {limit limit' : Nat} {line line' words : List α} {word : α}

@[simp] theorem width_singleton (word : α) : width size [word] = size word := by
  simp [width]

theorem width_append_singleton (some : line ≠ []) (word : α) :
    width size (line ++ [word]) = width size line + size word + 1 := by
  have := List.length_pos_iff.mpr some
  simp only [width, List.map_append, List.sum_append, List.map_singleton, List.sum_singleton,
    List.length_append, List.length_singleton]
  omega

theorem width_le_append (line more : List α) : width size line ≤ width size (line ++ more) := by
  simp only [width, List.map_append, List.sum_append, List.length_append]
  omega

/-! ## What is on the lines -/

theorem flatten_fill (limit : Nat) (line words : List α) :
    (fill size limit line words).flatten = line ++ words := by
  induction words generalizing line with
  | nil => simp [fill]
  | cons word words ih =>
      rw [fill]
      split
      · rw [ih, List.append_assoc, List.singleton_append]
      · rw [List.flatten_cons, ih, List.singleton_append]

/-- Every word is on one line, and in order. -/
theorem flatten_greedy (limit : Nat) (words : List α) :
    (greedy size limit words).flatten = words := by
  cases words with
  | nil => rfl
  | cons word words => exact flatten_fill limit [word] words

theorem fits_fill (fits : Fits size limit line) (words : List α) :
    ∀ filled ∈ fill size limit line words, Fits size limit filled := by
  induction words generalizing line with
  | nil =>
      intro filled there
      exact List.mem_singleton.mp there ▸ fits
  | cons word words ih =>
      rw [fill]
      split
      · next room => exact ih ⟨List.append_ne_nil_of_right_ne_nil _ (List.cons_ne_nil _ _), .inr room⟩
      · intro filled there
        rcases List.mem_cons.mp there with rfl | there
        · exact fits
        · exact ih ⟨List.cons_ne_nil _ _, .inl rfl⟩ filled there

theorem fits_greedy (limit : Nat) (words : List α) :
    ∀ filled ∈ greedy size limit words, Fits size limit filled := by
  cases words with
  | nil => nofun
  | cons word words => exact fits_fill ⟨List.cons_ne_nil _ _, .inl rfl⟩ words

/-! ## How many lines -/

/-- A fuller line leads to more lines, but to no more than one. -/
theorem length_fill (some : line ≠ []) (some' : line' ≠ [])
    (fuller : width size line ≤ width size line') (words : List α) :
    (fill size limit line words).length ≤ (fill size limit line' words).length ∧
      (fill size limit line' words).length ≤ (fill size limit line words).length + 1 := by
  induction words generalizing line line' with
  | nil => simp [fill]
  | cons word words ih =>
      have wide : width size (line ++ [word]) = _ := width_append_singleton some word
      have wide' : width size (line' ++ [word]) = _ := width_append_singleton some' word
      have filled : line ++ [word] ≠ [] := by simp
      have filled' : line' ++ [word] ≠ [] := by simp
      have one : [word] ≠ [] := by simp
      rw [fill, fill]
      by_cases room' : width size (line' ++ [word]) ≤ limit
      · have room : width size (line ++ [word]) ≤ limit := by omega
        rw [if_pos room, if_pos room']
        exact ih filled filled' (by omega)
      · rw [if_neg room']
        by_cases room : width size (line ++ [word]) ≤ limit
        · rw [if_pos room, List.length_cons]
          obtain ⟨fewer, more⟩ := ih one filled (by rw [width_singleton]; omega)
          exact ⟨more, by omega⟩
        · rw [if_neg room, List.length_cons, List.length_cons]
          omega

/-- Without the current line there is at most one line less. -/
theorem length_fill_le (some : line ≠ []) (words : List α) :
    (fill size limit line words).length ≤ (greedy size limit words).length + 1 := by
  cases words with
  | nil => simp [fill]
  | cons word words =>
      rw [fill, greedy]
      split
      · refine (length_fill (List.cons_ne_nil _ _) (by simp) ?_ words).2
        rw [width_append_singleton some, width_singleton]
        omega
      · exact le_rfl

/-- A line that fits is filled. -/
theorem fill_append {more : List α} (fits : more = [] ∨ width size (line ++ more) ≤ limit)
    (words : List α) :
    fill size limit line (more ++ words) = fill size limit (line ++ more) words := by
  induction more generalizing line with
  | nil => rw [List.nil_append, List.append_nil]
  | cons word more ih =>
      have whole : width size (line ++ [word] ++ more) ≤ limit := by
        rw [List.append_assoc]
        exact fits.resolve_left (List.cons_ne_nil _ _)
      have room : width size (line ++ [word]) ≤ limit := (width_le_append _ more).trans whole
      rw [List.cons_append, fill, if_pos room, ih (.inr whole), List.append_assoc,
        List.singleton_append]

/-- No other lines with the same words that all fit are fewer. -/
theorem length_greedy_le {lines : List (List α)} (fits : ∀ line ∈ lines, Fits size limit line) :
    (greedy size limit lines.flatten).length ≤ lines.length := by
  induction lines with
  | nil => exact le_rfl
  | cons line lines ih =>
      have fit := fits line List.mem_cons_self
      have rest := ih fun line there => fits line (List.mem_cons_of_mem _ there)
      cases line with
      | nil => exact absurd rfl fit.some
      | cons word more =>
          have room : more = [] ∨ width size ([word] ++ more) ≤ limit := by
            refine fit.short.imp_left fun one => ?_
            exact List.length_eq_zero_iff.mp (Nat.succ.inj one)
          have first : (fill size limit (word :: more) lines.flatten).length ≤ _ :=
            length_fill_le (List.cons_ne_nil word more) lines.flatten
          have filled : greedy size limit (word :: more ++ lines.flatten) =
              fill size limit (word :: more) lines.flatten := fill_append room lines.flatten
          rw [List.flatten_cons, filled, List.length_cons]
          omega

/-- A wider line never needs more lines. -/
theorem length_greedy_antitone (wider : limit ≤ limit') (words : List α) :
    (greedy size limit' words).length ≤ (greedy size limit words).length := by
  have fits : ∀ line ∈ greedy size limit words, Fits size limit' line := fun line there =>
    have fit := fits_greedy limit words line there
    ⟨fit.some, fit.short.imp_right (·.trans wider)⟩
  have fewer := length_greedy_le fits
  rwa [flatten_greedy] at fewer

/-- There are no more lines than words. -/
theorem length_greedy_le_length (limit : Nat) (words : List α) :
    (greedy size limit words).length ≤ words.length := by
  have fits : ∀ line ∈ words.map fun word => [word], Fits size limit line := by
    intro line there
    obtain ⟨word, _, rfl⟩ := List.mem_map.mp there
    exact ⟨List.cons_ne_nil _ _, .inl rfl⟩
  have fewer := length_greedy_le fits
  rwa [List.length_map, ← List.flatMap_def, List.flatMap_singleton'] at fewer

/-! ## Filling again -/

theorem settles_rising {f : Nat → Nat} (mono : Monotone f) {bound : Nat}
    (bounded : ∀ n, f n ≤ bound)
    (d : Nat) {n : Nat} (left : bound ≤ n + d) (rising : n ≤ f n) :
    ∃ k ≤ d, f (f^[k] n) = f^[k] n := by
  induction d generalizing n with
  | zero => exact ⟨0, le_rfl, Nat.le_antisymm ((bounded n).trans left) rising⟩
  | succ d ih =>
      rcases Nat.eq_or_lt_of_le rising with same | more
      · exact ⟨0, Nat.zero_le _, same.symm⟩
      · obtain ⟨k, few, rests⟩ := ih (n := f n) (by omega) (mono rising)
        exact ⟨k + 1, Nat.succ_le_succ few, rests⟩

theorem settles_falling {f : Nat → Nat} (mono : Monotone f) (d : Nat) {n : Nat} (left : n ≤ d)
    (falling : f n ≤ n) : ∃ k ≤ d, f (f^[k] n) = f^[k] n := by
  induction d generalizing n with
  | zero => exact ⟨0, le_rfl, by rw [Nat.le_zero.mp left] at falling ⊢; exact Nat.le_zero.mp falling⟩
  | succ d ih =>
      rcases Nat.eq_or_lt_of_le falling with same | less
      · exact ⟨0, Nat.zero_le _, same⟩
      · obtain ⟨k, few, rests⟩ := ih (n := f n) (by omega) (mono falling)
        exact ⟨k + 1, Nat.succ_le_succ few, rests⟩

/-- A bounded function that is monotone comes to rest, and is not applied more often before
than the bound allows. -/
theorem settles {f : Nat → Nat} (mono : Monotone f) {bound : Nat} (bounded : ∀ n, f n ≤ bound)
    {n : Nat} (start : n ≤ bound) : ∃ k ≤ bound, f (f^[k] n) = f^[k] n := by
  rcases Nat.le_total n (f n) with rising | falling
  · exact settles_rising mono bounded bound (Nat.le_add_left ..) rising
  · exact settles_falling mono bound start falling

end Packing
