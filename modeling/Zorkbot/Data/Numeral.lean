/-
# Numbers as text

Python's `str` and `int` between integers and decimal text. `int` takes the digits of every
script, white space around the number, and single underscores between digits.
-/

import Mathlib.Data.List.TakeWhile

namespace Numeral

/-- `str` of an integer. -/
def toText (n : Int) : List Char :=
  if n < 0 then '-' :: Nat.toDigits 10 n.natAbs else Nat.toDigits 10 n.natAbs

/-- The zeros of the decimal digits outside of ASCII. -/
def zeros : List Nat :=
  [1632, 1776, 1984, 2406, 2534, 2662, 2790, 2918, 3046, 3174, 3302, 3430, 3558, 3664, 3792, 3872,
    4160, 4240, 6112, 6160, 6470, 6608, 6784, 6800, 6992, 7088, 7232, 7248, 42528, 43216, 43264,
    43472, 43504, 43600, 44016, 65296, 66720, 68912, 69734, 69872, 69942, 70096, 70384, 70736, 70864,
    71248, 71360, 71472, 71904, 72016, 72784, 73040, 73120, 73552, 92768, 92864, 93008, 120782,
    120792, 120802, 120812, 120822, 123200, 123632, 124144, 125264, 130032]

/-- White space outside of ASCII. -/
def isWideSpace (n : Nat) : Bool :=
  n == 133 || n == 160 || n == 5760 || (8192 ≤ n && n ≤ 8202) || n == 8232 || n == 8233 ||
    n == 8239 || n == 8287 || n == 12288

/-- The character in ASCII, a question mark if it is neither white space nor a digit. -/
def asciiOf (c : Char) : Char :=
  if c.toNat < 127 then c
  else if isWideSpace c.toNat then ' '
  else
    match zeros.find? fun first => first ≤ c.toNat ∧ c.toNat < first + 10 with
    | some first => Nat.digitChar (c.toNat - first)
    | none => '?'

/-- The white space of ASCII. -/
def isBlank (c : Char) : Bool := c == ' ' || (9 ≤ c.toNat && c.toNat ≤ 13)

def isFigure (c : Char) : Bool := c.isDigit || c == '_'

/-- The most digits that `int` converts. -/
def maxDigits : Nat := 4300

/-- A number without its sign. -/
def magnitude (text : List Char) : Option Nat :=
  let figures := text.takeWhile isFigure
  let digits := figures.filter (· ≠ '_')
  if (figures.splitOn '_').all (· ≠ []) ∧ (text.dropWhile isFigure).all isBlank ∧
      digits.length ≤ maxDigits then
    some (Nat.ofDigitChars 10 digits 0)
  else none

/-- `int` of a text; `none` is its `ValueError`. -/
def ofText (text : List Char) : Option Int :=
  match (text.map asciiOf).dropWhile isBlank with
  | '-' :: rest => (magnitude rest).map fun n : Nat => -(n : Int)
  | '+' :: rest => (magnitude rest).map fun n : Nat => (n : Int)
  | rest => (magnitude rest).map fun n : Nat => (n : Int)

/-! ## The round trip -/

theorem toNat_of_isDigit {c : Char} (digit : c.isDigit = true) : 48 ≤ c.toNat ∧ c.toNat ≤ 57 :=
  Char.isDigit_iff_toNat.mp digit

theorem asciiOf_of_isDigit {c : Char} (digit : c.isDigit = true) : asciiOf c = c :=
  if_pos (Nat.lt_of_le_of_lt (toNat_of_isDigit digit).2 (by decide))

theorem isBlank_of_isDigit {c : Char} (digit : c.isDigit = true) : isBlank c = false := by
  have bounds := toNat_of_isDigit digit
  have other : c ≠ ' ' := fun same => by simp [same] at bounds
  have above : ¬c.toNat ≤ 13 := by omega
  simp [isBlank, other, above]

theorem isDigit_of_mem {n : Nat} {c : Char} (there : c ∈ Nat.toDigits 10 n) : c.isDigit = true :=
  Nat.isDigit_of_mem_toDigits (by decide) (by decide) there

theorem map_asciiOf_toDigits (n : Nat) :
    (Nat.toDigits 10 n).map asciiOf = Nat.toDigits 10 n :=
  (List.map_congr_left fun _ there => asciiOf_of_isDigit (isDigit_of_mem there)).trans
    (List.map_id _)

/-- The digits of a number are read as the number. -/
theorem magnitude_toDigits {n : Nat} (short : (Nat.toDigits 10 n).length ≤ maxDigits) :
    magnitude (Nat.toDigits 10 n) = some n := by
  have figures : ∀ c ∈ Nat.toDigits 10 n, isFigure c = true := fun c there => by
    rw [isFigure, isDigit_of_mem there, Bool.true_or]
  have plain : (Nat.toDigits 10 n).filter (· ≠ '_') = Nat.toDigits 10 n := by
    rw [List.filter_eq_self]
    exact fun c there => decide_eq_true fun same => Nat.underscore_not_in_toDigits (same ▸ there)
  have whole : (Nat.toDigits 10 n).splitOn '_' = [Nat.toDigits 10 n] :=
    List.splitOn_eq_singleton Nat.underscore_not_in_toDigits
  simp only [magnitude]
  rw [List.takeWhile_eq_self_iff.mpr figures, List.dropWhile_eq_nil_iff.mpr figures, plain, whole,
    if_pos ⟨by simp [Nat.toDigits_ne_nil], rfl, short⟩, Nat.ofDigitChars_ten_toDigits]

/-- What was written as text is read again. -/
theorem ofText_toText {n : Int} (short : (Nat.toDigits 10 n.natAbs).length ≤ maxDigits) :
    ofText (toText n) = some n := by
  rw [ofText, toText]
  split_ifs with negative
  · rw [List.map_cons, map_asciiOf_toDigits]
    have read : (magnitude (Nat.toDigits 10 n.natAbs)).map (fun m : Nat => -(m : Int)) = some n := by
      rw [magnitude_toDigits short, Option.map_some]
      congr 1
      omega
    exact read
  · rw [map_asciiOf_toDigits]
    cases digits : Nat.toDigits 10 n.natAbs with
    | nil => exact absurd digits Nat.toDigits_ne_nil
    | cons c rest =>
        have digit : c.isDigit = true := isDigit_of_mem (digits ▸ List.mem_cons_self)
        rw [List.dropWhile_cons_of_neg (by simp [isBlank_of_isDigit digit])]
        have read : (magnitude (c :: rest)).map (fun m : Nat => (m : Int)) = some n := by
          rw [← digits, magnitude_toDigits short, Option.map_some]
          congr 1
          omega
        split
        · next same =>
            rw [(List.cons.inj same).1] at digit
            exact absurd digit (by decide)
        · next same =>
            rw [(List.cons.inj same).1] at digit
            exact absurd digit (by decide)
        · exact read

end Numeral
