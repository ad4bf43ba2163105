/-
# UTF-8 from a stream

The bytes of a text come in chunks that may end inside a character. The decoder keeps what it has
of a character until the rest of it comes. What is no character is replaced by U+FFFD.
-/

import Mathlib.Data.List.Basic

namespace Utf8

/-- What the decoder has of a character. -/
structure Partial where
  /-- The bits of the bytes so far. -/
  point : Nat
  /-- How many bytes are missing. -/
  needed : Nat
  lower : Nat
  upper : Nat
  deriving DecidableEq

/-- What a byte at the beginning of a character makes. -/
def first (b : UInt8) : Option Partial × List Char :=
  let n := b.toNat
  if n < 0x80 then (none, [Char.ofNat n])
  else if 0xC2 ≤ n ∧ n ≤ 0xDF then (some ⟨n - 0xC0, 1, 0x80, 0xBF⟩, [])
  else if 0xE0 ≤ n ∧ n ≤ 0xEF then
    (some ⟨n - 0xE0, 2, if n = 0xE0 then 0xA0 else 0x80, if n = 0xED then 0x9F else 0xBF⟩, [])
  else if 0xF0 ≤ n ∧ n ≤ 0xF4 then
    (some ⟨n - 0xF0, 3, if n = 0xF0 then 0x90 else 0x80, if n = 0xF4 then 0x8F else 0xBF⟩, [])
  else (none, ['\uFFFD'])

/-- One byte. A byte that does not continue a character ends it and begins another. -/
def step (state : Option Partial) (b : UInt8) : Option Partial × List Char :=
  match state with
  | none => first b
  | some p =>
      let n := b.toNat
      if p.lower ≤ n ∧ n ≤ p.upper then
        let point := 64 * p.point + (n - 0x80)
        if p.needed = 1 then (none, [Char.ofNat point])
        else (some ⟨point, p.needed - 1, 0x80, 0xBF⟩, [])
      else ((first b).1, '\uFFFD' :: (first b).2)

/-- A chunk. -/
def decode (state : Option Partial) : List UInt8 → Option Partial × List Char
  | [] => (state, [])
  | b :: rest =>
      ((decode (step state b).1 rest).1, (step state b).2 ++ (decode (step state b).1 rest).2)

theorem decode_append (state : Option Partial) (s t : List UInt8) : decode state (s ++ t) =
    ((decode (decode state s).1 t).1, (decode state s).2 ++ (decode (decode state s).1 t).2) := by
  induction s generalizing state with
  | nil => rfl
  | cons b s ih => rw [List.cons_append, decode, ih, decode, List.append_assoc]

/-! ## One character -/

theorem toNat_ofNat {n : Nat} (byte : n < 256) : (UInt8.ofNat n).toNat = n := by
  rw [UInt8.toNat_ofNat']
  exact Nat.mod_eq_of_lt byte

theorem first_one {n : Nat} (low : n < 0x80) : first (UInt8.ofNat n) = (none, [Char.ofNat n]) := by
  rw [first, toNat_ofNat (by omega), if_pos low]

theorem first_two {n : Nat} (two : 2 ≤ n) (low : n < 0x20) :
    first (UInt8.ofNat (n + 0xC0)) = (some ⟨n, 1, 0x80, 0xBF⟩, []) := by
  rw [first, toNat_ofNat (by omega), if_neg (by omega), if_pos (by omega), Nat.add_sub_cancel]

theorem first_three {n : Nat} (low : n < 0x10) : first (UInt8.ofNat (n + 0xE0)) =
    (some ⟨n, 2, if n = 0 then 0xA0 else 0x80, if n = 13 then 0x9F else 0xBF⟩, []) := by
  have least : n + 0xE0 = 0xE0 ↔ n = 0 := by omega
  have most : n + 0xE0 = 0xED ↔ n = 13 := by omega
  rw [first, toNat_ofNat (by omega), if_neg (by omega), if_neg (by omega), if_pos (by omega),
    Nat.add_sub_cancel]
  simp only [least, most]

theorem first_four {n : Nat} (low : n < 5) : first (UInt8.ofNat (n + 0xF0)) =
    (some ⟨n, 3, if n = 0 then 0x90 else 0x80, if n = 4 then 0x8F else 0xBF⟩, []) := by
  have least : n + 0xF0 = 0xF0 ↔ n = 0 := by omega
  have most : n + 0xF0 = 0xF4 ↔ n = 4 := by omega
  rw [first, toNat_ofNat (by omega), if_neg (by omega), if_neg (by omega), if_neg (by omega),
    if_pos (by omega), Nat.add_sub_cancel]
  simp only [least, most]

theorem step_none (b : UInt8) : step none b = first b := rfl

/-- The last byte of a character. -/
theorem step_last {point lower upper n : Nat} (low : n < 64)
    (within : lower ≤ n + 0x80 ∧ n + 0x80 ≤ upper) :
    step (some ⟨point, 1, lower, upper⟩) (UInt8.ofNat (n + 0x80)) =
      (none, [Char.ofNat (64 * point + n)]) := by
  rw [step, toNat_ofNat (by omega)]
  simp only [within, and_self, if_true, Nat.add_sub_cancel]

/-- A byte between. -/
theorem step_next {point needed lower upper n : Nat} (low : n < 64)
    (within : lower ≤ n + 0x80 ∧ n + 0x80 ≤ upper) (more : needed ≠ 1) :
    step (some ⟨point, needed, lower, upper⟩) (UInt8.ofNat (n + 0x80)) =
      (some ⟨64 * point + n, needed - 1, 0x80, 0xBF⟩, []) := by
  rw [step, toNat_ofNat (by omega)]
  simp only [within, and_self, if_true, Nat.add_sub_cancel, if_neg more]

/-- The bytes of a character are decoded to it. -/
theorem decode_char (c : Char) : decode none (String.utf8EncodeChar c) = (none, [c]) := by
  have valid : c.toNat < 0xD800 ∨ 0xDFFF < c.toNat ∧ c.toNat < 0x110000 := c.valid
  have back : Char.ofNat c.toNat = c := Char.ofNat_toNat c
  have value : c.val.toNat = c.toNat := rfl
  unfold String.utf8EncodeChar
  rw [value]
  generalize c.toNat = n at valid back
  dsimp only
  split
  · next one =>
      simp only [decode, step_none, first_one (Nat.lt_succ_of_le one), back, List.append_nil]
  · split
    · next more two =>
        have high : n / 64 % 0x20 = n / 64 := Nat.mod_eq_of_lt (by omega)
        have whole : 64 * (n / 64) + n % 64 = n := Nat.div_add_mod n 64
        have last := @step_last (n / 64) 0x80 0xBF (n % 64) (by omega) (by omega)
        rw [whole, back] at last
        simp only [decode, step_none, high, first_two (show 2 ≤ n / 64 by omega) (by omega), last,
          List.nil_append, List.append_nil]
    · split
      · next more more' three =>
          have high : n / 4096 % 0x10 = n / 4096 := Nat.mod_eq_of_lt (by omega)
          have whole : 64 * (64 * (n / 4096) + n / 64 % 64) + n % 64 = n := by omega
          have next := @step_next (n / 4096) 2 (if n / 4096 = 0 then 0xA0 else 0x80)
            (if n / 4096 = 13 then 0x9F else 0xBF) (n / 64 % 64) (by omega)
            ⟨by split <;> omega, by split <;> omega⟩ (by decide)
          have last := @step_last (64 * (n / 4096) + n / 64 % 64) 0x80 0xBF (n % 64) (by omega)
            (by omega)
          rw [whole, back] at last
          simp only [decode, step_none, high, first_three (show n / 4096 < 0x10 by omega), next,
            Nat.reduceSub, last, List.nil_append, List.append_nil]
      · next more more' more'' =>
          have high : n / 262144 % 0x08 = n / 262144 := Nat.mod_eq_of_lt (by omega)
          have whole : 64 * (64 * (64 * (n / 262144) + n / 4096 % 64) + n / 64 % 64) + n % 64 =
              n := by omega
          have next := @step_next (n / 262144) 3 (if n / 262144 = 0 then 0x90 else 0x80)
            (if n / 262144 = 4 then 0x8F else 0xBF) (n / 4096 % 64) (by omega)
            ⟨by split <;> omega, by split <;> omega⟩ (by decide)
          have then_ := @step_next (64 * (n / 262144) + n / 4096 % 64) 2 0x80 0xBF (n / 64 % 64)
            (by omega) (by omega) (by decide)
          have last := @step_last (64 * (64 * (n / 262144) + n / 4096 % 64) + n / 64 % 64) 0x80
            0xBF (n % 64) (by omega) (by omega)
          rw [whole, back] at last
          simp only [decode, step_none, high, first_four (show n / 262144 < 5 by omega), next,
            Nat.reduceSub, then_, last, List.nil_append, List.append_nil]

/-- The bytes of a text are decoded to it. -/
theorem decode_text (text : List Char) :
    decode none (text.flatMap String.utf8EncodeChar) = (none, text) := by
  induction text with
  | nil => rfl
  | cons c text ih => rw [List.flatMap_cons, decode_append, decode_char, ih, List.singleton_append]

end Utf8
