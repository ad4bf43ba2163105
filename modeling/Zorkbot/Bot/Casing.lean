/-
# Reading texts

What the readers of messages rely on about `str.lower`, `str.strip` and `str.partition`:
how they act on a text that is put together from two. A text whose characters have a lower
case of one character each has it wherever it stands.
-/

import Mathlib.Data.Bool.AllAny
import Zorkbot.Bot.Sanitize
import Zorkbot.Data.Words

namespace Zorkbot.Bot

variable {f : Str → Nat → Bool} {s t text : Str}

/-! ## Lower case -/

/-- The characters have a lower case of one character each, the same at any place. -/
structure Simple (text : Str) : Prop where
  dotted : '\u0130' ∉ text
  sigma : 'Σ' ∉ text

theorem simple_of_lower (ascii : ∀ d ∈ lower f text, d.toNat < 128) : Simple text :=
  ⟨(plain_of_lower ascii).1, (plain_of_lower ascii).2⟩

theorem ascii_of_all (all : (text.all fun d => decide (d.toNat < 128)) = true) :
    ∀ d ∈ text, d.toNat < 128 := List.all_iff_forall_prop.mp all

theorem simple_of_ascii (ascii : ∀ d ∈ text, d.toNat < 128) : Simple text :=
  ⟨fun there => absurd (ascii _ there) (by decide), fun there => absurd (ascii _ there) (by decide)⟩

theorem Simple.lower (simple : Simple text) : lower f text = Go.toLower text :=
  lower_eq_toLower simple.dotted simple.sigma

theorem Simple.length_lower (simple : Simple text) :
    (Bot.lower f text).length = text.length := by
  rw [simple.lower, Go.toLower, List.length_map]

/-- The lower case of a text begins with that of a simple beginning. -/
theorem Simple.lower_append (simple : Simple s) (t : Str) :
    ∃ u, Bot.lower f (s ++ t) = Go.toLower s ++ u := by
  have first : Bot.lower (fun _ => f (s ++ t)) s = Go.toLower s := simple.lower
  rw [Bot.lower, List.mapIdx_append, List.flatten_append]
  exact ⟨_, congrArg (· ++ _) first⟩

/-- No sigma ends a word. -/
def medial : Str → Nat → Bool := fun _ _ => false

theorem toLower_ascii (ascii : ∀ d ∈ text, d.toNat < 128) :
    ∀ d ∈ Go.toLower text, d.toNat < 128 := by
  intro d there
  obtain ⟨c, listed, rfl⟩ := List.mem_map.mp there
  have low := ascii c listed
  rw [Go.toLowerChar, if_pos low, Go.asciiLower]
  split
  · next capital =>
      have bounds : 65 ≤ c.toNat ∧ c.toNat ≤ 90 := capital
      rw [toNat_ofNat_of_valid (by unfold Nat.isValidChar; omega)]
      omega
  · exact low

/-- What no letter's lower case is, stands where it stood. -/
theorem head_of_toLower {c d : Char} {rest : Str} (symbol : d.toNat < 97)
    (lowered : (Go.toLower (c :: rest)).head? = some d) : c = d :=
  toLowerChar_eq_symbol symbol (Option.some.inj lowered)

theorem head_of_lower {d : Char} (symbol : d.toNat < 97)
    (lowered : (lower f text).head? = some d) : text.head? = some d := by
  cases text with
  | nil => cases lowered
  | cons c rest =>
      rw [lower, List.mapIdx_cons, List.flatten_cons] at lowered
      unfold lowerChar at lowered
      split at lowered
      · simp only [List.cons_append, List.head?_cons, Option.some.injEq] at lowered
        exact absurd symbol (lowered ▸ by decide)
      · split at lowered
        · simp only [List.cons_append, List.head?_cons, Option.some.injEq] at lowered
          refine absurd symbol ?_
          rw [← lowered]
          split
          · decide
          · decide
        · simp only [List.cons_append, List.head?_cons, Option.some.injEq] at lowered
          rw [List.head?_cons, toLowerChar_eq_symbol symbol lowered]

/-! ## Trimming -/

theorem isSpace_space : isSpace ' ' = true := by decide

/-- A space whose lower case is ASCII is its own lower case. -/
theorem toLowerChar_of_space {d : Char} (space : isSpace d = true)
    (low : (Go.toLowerChar d).toNat < 128) : d.toNat ≤ 32 ∧ Go.toLowerChar d = d := by
  by_cases ascii : d.toNat < 128
  · have small : d.toNat ≤ 32 := by
      simp only [isSpace, Bool.or_eq_true, Bool.and_eq_true, decide_eq_true_eq, beq_iff_eq] at space
      omega
    refine ⟨small, ?_⟩
    rw [Go.toLowerChar, if_pos ascii, Go.asciiLower, if_neg]
    rintro ⟨capital, -⟩
    have bound : 65 ≤ d.toNat := capital
    omega
  · have beyond := Nat.le_of_not_lt ascii
    have dotted : d ≠ '\u0130' := by
      rintro rfl
      exact absurd space (by decide)
    have kelvin : d ≠ '\u212A' := by
      rintro rfl
      exact absurd space (by decide)
    exact absurd low (Nat.not_lt.mpr (toLowerChar_beyond beyond dotted kelvin))

theorem rdropWhile_append {α : Type*} (p : α → Bool) (l m : List α) :
    (l ++ m).rdropWhile p =
      if m.rdropWhile p = [] then l.rdropWhile p else l ++ m.rdropWhile p := by
  unfold List.rdropWhile
  rw [List.reverse_append, List.dropWhile_append]
  split
  · next none => rw [if_pos (by simpa using none)]
  · next some =>
      rw [if_neg (by simpa using some), List.reverse_append, List.reverse_reverse]

theorem strip_cons_space (text : Str) : strip (' ' :: text) = strip text := by
  have gone : lstrip (' ' :: text) = lstrip text := List.dropWhile_cons_of_pos isSpace_space
  rw [strip, gone]
  rfl

/-- A text that begins with no space is trimmed at its end only. -/
theorem strip_of_head (first : ∀ d, text.head? = some d → isSpace d = false) :
    strip text = text.rdropWhile isSpace := by
  have kept : text.dropWhile isSpace = text := by
    cases text with
    | nil => rfl
    | cons c rest => exact List.dropWhile_cons_of_neg (by simp [first c rfl])
  change (text.dropWhile isSpace).rdropWhile isSpace = _
  rw [kept]

theorem head_strip (text : Str) : ∀ d, (strip text).head? = some d → isSpace d = false := by
  intro d first
  obtain ⟨tail, whole⟩ := List.rdropWhile_prefix isSpace (text.dropWhile isSpace)
  have head := List.head?_dropWhile_not isSpace text
  have same : (text.dropWhile isSpace).head? = some d := by
    rw [← whole, List.head?_append]
    change ((strip text).head?.or _) = _
    rw [first, Option.some_or]
  rw [same] at head
  simpa using head

@[simp]
theorem strip_strip (text : Str) : strip (strip text) = strip text := by
  rw [strip_of_head (head_strip text)]
  exact List.rdropWhile_idempotent isSpace _

/-- What comes before a character that is no space stays, from its first on. -/
theorem strip_append {c : Char} (some : isSpace c = false)
    (first : ∀ d, s.head? = .some d → isSpace d = false) (t : Str) :
    strip (s ++ c :: t) = s ++ strip (c :: t) := by
  have left : ∀ d, (s ++ c :: t).head? = .some d → isSpace d = false := by
    intro d head
    cases s with
    | nil => exact Option.some.inj head ▸ some
    | cons => exact first d head
  have right : ∀ d, (c :: t).head? = .some d → isSpace d = false :=
    fun d head => Option.some.inj head ▸ some
  rw [strip_of_head left, strip_of_head right, rdropWhile_append, if_neg]
  intro none
  have blank := List.rdropWhile_eq_nil_iff.mp none c List.mem_cons_self
  rw [some] at blank
  cases blank

theorem strip_cons {c : Char} (some : isSpace c = false) (text : Str) :
    ∃ rest, strip (c :: text) = c :: rest := by
  have right : ∀ d, (c :: text).head? = .some d → isSpace d = false :=
    fun d head => Option.some.inj head ▸ some
  rw [strip_of_head right, ← List.singleton_append, rdropWhile_append]
  split
  · exact ⟨[], by rw [List.rdropWhile_singleton, if_neg (by simp [some])]⟩
  · exact ⟨_, rfl⟩

/-- A trimmed text stays whole behind anything that does not begin with a space. -/
theorem strip_append_of_trimmed (trimmed : strip t = t) (some : t ≠ [])
    (first : ∀ d, s.head? = .some d → isSpace d = false) : strip (s ++ t) = s ++ t := by
  cases t with
  | nil => exact absurd rfl some
  | cons c rest =>
      have plain := head_strip (c :: rest) c (by rw [trimmed, List.head?_cons])
      rw [strip_append plain first, trimmed]

end Zorkbot.Bot
