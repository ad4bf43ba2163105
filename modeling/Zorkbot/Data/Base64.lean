/-
# Base64

The encoding with the alphabet that is safe in a URL, as Python's `base64` has it: the
encoder pads, and the decoder takes both alphabets, skips what belongs to neither and stops
where a padding is complete.
-/

import Mathlib.Data.List.Basic

namespace Base64

/-- The character of six bits. -/
def digit (n : Nat) : Char :=
  "ABCDEFGHIJKLMNOPQRSTUVWXYZabcdefghijklmnopqrstuvwxyz0123456789-_".toList.getD n '='

/-- The six bits of a character of either alphabet. -/
def value (c : Char) : Option Nat :=
  if 'A' ≤ c ∧ c ≤ 'Z' then some (c.toNat - 'A'.toNat)
  else if 'a' ≤ c ∧ c ≤ 'z' then some (c.toNat - 'a'.toNat + 26)
  else if '0' ≤ c ∧ c ≤ '9' then some (c.toNat - '0'.toNat + 52)
  else if c = '-' ∨ c = '+' then some 62
  else if c = '_' ∨ c = '/' then some 63
  else none

/-- `urlsafe_b64encode`. -/
def encode : List UInt8 → List Char
  | [] => []
  | [a] => [digit (a.toNat / 4), digit (a.toNat % 4 * 16), '=', '=']
  | [a, b] =>
      [digit (a.toNat / 4), digit (a.toNat % 4 * 16 + b.toNat / 16), digit (b.toNat % 16 * 4), '=']
  | a :: b :: c :: rest =>
      digit (a.toNat / 4) :: digit (a.toNat % 4 * 16 + b.toNat / 16) ::
        digit (b.toNat % 16 * 4 + c.toNat / 64) :: digit (c.toNat % 64) :: encode rest

/-- The loop of the decoder: how many characters of a group have come, the bits left of
the last, and how many characters of padding in a row. It fails when the text ends inside a
group. -/
def decodeFrom (quad left pads : Nat) : List Char → Option (List UInt8)
  | [] => if quad = 0 then some [] else none
  | c :: rest =>
      if c = '=' then
        if quad < 2 then decodeFrom quad left pads rest
        else if quad + (pads + 1) ≥ 4 then some []
        else decodeFrom quad left (pads + 1) rest
      else
        match value c with
        | none => decodeFrom quad left pads rest
        | some bits =>
            match quad with
            | 0 => decodeFrom 1 bits 0 rest
            | 1 => (UInt8.ofNat (left * 4 + bits / 16) :: ·) <$> decodeFrom 2 (bits % 16) 0 rest
            | 2 => (UInt8.ofNat (left * 16 + bits / 4) :: ·) <$> decodeFrom 3 (bits % 4) 0 rest
            | _ => (UInt8.ofNat (left * 64 + bits) :: ·) <$> decodeFrom 0 0 0 rest

/-- `urlsafe_b64decode` of a text. A character that is not ASCII has no byte of either
alphabet. -/
def decode (text : List Char) : Option (List UInt8) := decodeFrom 0 0 0 text

/-! ## The round trip -/

theorem digit_spec : ∀ n < 64, digit n ≠ '=' ∧ value (digit n) = some n := by decide +kernel

/-- A character of the encoding is read as its bits. -/
theorem decodeFrom_digit {n : Nat} (small : n < 64) (quad left pads : Nat) (rest : List Char) :
    decodeFrom quad left pads (digit n :: rest) =
      match quad with
      | 0 => decodeFrom 1 n 0 rest
      | 1 => (UInt8.ofNat (left * 4 + n / 16) :: ·) <$> decodeFrom 2 (n % 16) 0 rest
      | 2 => (UInt8.ofNat (left * 16 + n / 4) :: ·) <$> decodeFrom 3 (n % 4) 0 rest
      | _ => (UInt8.ofNat (left * 64 + n) :: ·) <$> decodeFrom 0 0 0 rest := by
  obtain ⟨plain, valued⟩ := digit_spec n small
  rw [decodeFrom, if_neg plain, valued]

theorem ofNat_of_split (a : UInt8) {n : Nat} (same : n = a.toNat) : UInt8.ofNat n = a := by
  rw [same, UInt8.ofNat_toNat]

/-- What was encoded is decoded. -/
theorem decode_encode (bytes : List UInt8) : decode (encode bytes) = some bytes := by
  rw [decode]
  fun_induction encode bytes with
  | case1 => rfl
  | case2 a =>
      have := a.toNat_lt
      simp (disch := omega) only [decodeFrom_digit]
      rw [ofNat_of_split a (by omega)]
      rfl
  | case3 a b =>
      have := a.toNat_lt
      have := b.toNat_lt
      simp (disch := omega) only [decodeFrom_digit]
      rw [ofNat_of_split a (by omega), ofNat_of_split b (by omega)]
      rfl
  | case4 a b c rest ih =>
      have := a.toNat_lt
      have := b.toNat_lt
      have := c.toNat_lt
      simp (disch := omega) only [decodeFrom_digit]
      rw [ih, ofNat_of_split a (by omega), ofNat_of_split b (by omega), ofNat_of_split c (by omega)]
      rfl

end Base64
