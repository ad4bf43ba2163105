/-
# Words between separators

The words of a text are its maximal parts without separators. Trimming the text, changing
which separators stand between two words, or cutting the text at some of them leaves the words
as they are.
-/

import Mathlib.Data.List.TakeWhile

/-- Whether a text is among others is decided by comparing it with them. -/
instance lawfulBEq_listChar : LawfulBEq (List Char) := inferInstance

namespace Words

universe u

variable {α : Type u} (sep : α → Bool)

/-- The words of a text. -/
def split (text : List α) : List (List α) := (text.splitOnP sep).filter fun word => !word.isEmpty

variable {sep} {text rest word : List α} {c : α}

@[simp] theorem split_nil : split sep [] = [] := rfl

/-- A separator ends a word. -/
theorem split_append_cons (is : sep c = true) (text rest : List α) :
    split sep (text ++ c :: rest) = split sep text ++ split sep rest := by
  rw [split, List.splitOnP_append_cons text rest is, List.filter_append]
  rfl

theorem split_cons (is : sep c = true) (rest : List α) : split sep (c :: rest) = split sep rest :=
  split_append_cons is [] rest

/-- Separators after a text. -/
theorem split_append_of_all (all : ∀ c ∈ rest, sep c = true) (text : List α) :
    split sep (text ++ rest) = split sep text := by
  induction rest generalizing text with
  | nil => rw [List.append_nil]
  | cons c rest ih =>
      have blank := ih (fun c there => all c (List.mem_cons_of_mem _ there)) []
      rw [split_append_cons (all c List.mem_cons_self), ← List.nil_append rest, blank, split_nil,
        List.append_nil]

theorem split_dropWhile (text : List α) : split sep (text.dropWhile sep) = split sep text := by
  induction text with
  | nil => rfl
  | cons c text ih =>
      rw [List.dropWhile_cons]
      split
      · next is => rw [ih, split_cons is]
      · rfl

theorem split_rdropWhile (text : List α) :
    split sep (text.reverse.dropWhile sep).reverse = split sep text := by
  have whole : (text.reverse.dropWhile sep).reverse ++ (text.reverse.takeWhile sep).reverse =
      text := by
    rw [← List.reverse_append, List.takeWhile_append_dropWhile, List.reverse_reverse]
  conv => rhs; rw [← whole]
  refine (split_append_of_all (fun c there => ?_) _).symm
  exact List.mem_takeWhile_imp (List.mem_reverse.mp there)

/-- A text without separators is its only word. -/
theorem split_of_plain (some : word ≠ []) (plain : ∀ c ∈ word, sep c = false) :
    split sep word = [word] := by
  rw [split, List.splitOnP_eq_singleton plain]
  simp [some]

/-- A text that begins with no separator begins with its first word. -/
theorem split_of_head (plain : sep c = false) (rest : List α) :
    split sep (c :: rest) = (c :: rest).takeWhile (!sep ·) ::
      split sep ((c :: rest).dropWhile (!sep ·)) := by
  have whole : (c :: rest).takeWhile (!sep ·) ++ (c :: rest).dropWhile (!sep ·) = c :: rest :=
    List.takeWhile_append_dropWhile
  have word : split sep ((c :: rest).takeWhile (!sep ·)) = [(c :: rest).takeWhile (!sep ·)] := by
    apply split_of_plain
    · rw [List.takeWhile_cons_of_pos (by simp [plain])]
      exact List.cons_ne_nil _ _
    · intro d there
      simpa using List.mem_takeWhile_imp there
  have stop := List.head?_dropWhile_not (!sep ·) (c :: rest)
  conv => lhs; rw [← whole]
  cases left : (c :: rest).dropWhile (!sep ·) with
  | nil => rw [List.append_nil, word, split_nil]
  | cons d after =>
      rw [left] at stop
      have is : sep d = true := by simpa using stop
      rw [split_append_cons is, word, split_cons is, List.singleton_append]

theorem mem_splitOnP (there : word ∈ text.splitOnP sep) : ∀ c ∈ word, sep c = false := by
  induction text generalizing word with
  | nil =>
      rw [List.splitOnP_nil, List.mem_singleton] at there
      exact there ▸ nofun
  | cons c text ih =>
      rw [List.splitOnP_cons_eq_if_modifyHead] at there
      split at there
      · rcases List.mem_cons.mp there with rfl | there
        · nofun
        · exact ih there
      · next plain =>
          cases pieces : text.splitOnP sep with
          | nil => exact absurd pieces (List.splitOnP_ne_nil _ _)
          | cons first others =>
              rw [pieces, List.modifyHead_cons] at there
              rcases List.mem_cons.mp there with rfl | there
              · intro d listed
                rcases List.mem_cons.mp listed with rfl | listed
                · exact Bool.eq_false_iff.mpr plain
                · exact ih (pieces ▸ List.mem_cons_self) d listed
              · exact ih (pieces ▸ List.mem_cons_of_mem _ there)

/-- A word is not empty and has no separator. -/
theorem of_mem_split (there : word ∈ split sep text) :
    word ≠ [] ∧ ∀ c ∈ word, sep c = false := by
  obtain ⟨piece, some⟩ := List.mem_filter.mp there
  exact ⟨by simpa using some, mem_splitOnP piece⟩

/-- Pieces of a text with a separator between two of them. -/
theorem split_intercalate (is : sep c = true) (pieces : List (List α)) :
    split sep ([c].intercalate pieces) = pieces.flatMap (split sep) := by
  induction pieces with
  | nil => rfl
  | cons piece pieces ih =>
      cases pieces with
      | nil => simp
      | cons next pieces =>
          rw [List.intercalate_cons_cons, List.append_assoc, List.singleton_append,
            split_append_cons is, ih]
          exact List.flatMap_cons.symm

theorem flatMap_splitOn [BEq α] [LawfulBEq α] (is : sep c = true) (text : List α) :
    (text.splitOn c).flatMap (split sep) = split sep text := by
  rw [← split_intercalate is, List.intercalate_splitOn]

/-- Words with a separator between two of them. -/
theorem split_join (is : sep c = true) {words : List (List α)}
    (plain : ∀ word ∈ words, word ≠ [] ∧ ∀ c ∈ word, sep c = false) :
    split sep ([c].intercalate words) = words := by
  rw [split_intercalate is]
  induction words with
  | nil => rfl
  | cons word words ih =>
      obtain ⟨some, without⟩ := plain word List.mem_cons_self
      rw [List.flatMap_cons, split_of_plain some without,
        ih fun word there => plain word (List.mem_cons_of_mem _ there), List.singleton_append]

/-- The words have all that is no separator. -/
theorem flatten_split (text : List α) : (split sep text).flatten = text.filter (!sep ·) := by
  rw [split, List.flatten_filter_not_isEmpty]
  induction text with
  | nil => rfl
  | cons c text ih =>
      rw [List.splitOnP_cons_eq_if_modifyHead, List.filter_cons]
      split
      · next is => rw [List.flatten_cons, List.nil_append, ih, if_neg (by simp [is])]
      · next plain =>
          cases pieces : text.splitOnP sep with
          | nil => exact absurd pieces (List.splitOnP_ne_nil _ _)
          | cons first others =>
              rw [pieces] at ih
              rw [List.modifyHead_cons, List.flatten_cons, List.cons_append, ← List.flatten_cons, ih,
                if_pos (by simp [plain])]

theorem split_eq_nil_iff : split sep text = [] ↔ ∀ c ∈ text, sep c = true := by
  constructor
  · intro none
    have all : (split sep text).flatten = _ := flatten_split text
    rw [none, List.flatten_nil, eq_comm, List.filter_eq_nil_iff] at all
    exact fun c there => by simpa using all c there
  · intro all
    have blank := split_append_of_all all ([] : List α)
    rwa [List.nil_append, split_nil] at blank

end Words
