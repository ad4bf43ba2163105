/-
# Rounding to doubles

A sum or a difference of two doubles is computed exactly and then rounded to the nearest double,
and of two that are as near to the one whose last digit is even. A double has 53 significant
digits, so of the exact result at most one part in 2^53 is lost, in either direction. Nothing is
lost by underflow in a sum or a difference; results beyond the largest double are left out.
-/

import Mathlib.Algebra.Order.Ring.Rat
import Mathlib.Data.Int.Log
import Mathlib.Data.Rat.Floor
import Mathlib.Tactic.Linarith
import Mathlib.Tactic.NormNum
import Mathlib.Tactic.Positivity
import Mathlib.Tactic.Ring

namespace Binary64

/-! ## To the nearest integer -/

/-- The nearest integer, and of two the even one. -/
def halfEven (x : ℚ) : ℤ :=
  if x - ⌊x⌋ < 1 / 2 then ⌊x⌋
  else if 1 / 2 < x - ⌊x⌋ then ⌊x⌋ + 1
  else if ⌊x⌋ % 2 = 0 then ⌊x⌋
  else ⌊x⌋ + 1

variable {x y q r : ℚ}

theorem floor_le_halfEven (x : ℚ) : ⌊x⌋ ≤ halfEven x := by
  unfold halfEven
  split_ifs <;> omega

theorem halfEven_le_floor_add_one (x : ℚ) : halfEven x ≤ ⌊x⌋ + 1 := by
  unfold halfEven
  split_ifs <;> omega

theorem halfEven_mono (le : x ≤ y) : halfEven x ≤ halfEven y := by
  rcases (Int.floor_mono le).eq_or_lt with same | less
  · unfold halfEven
    rw [same]
    have shifted : x - ⌊y⌋ ≤ y - ⌊y⌋ := sub_le_sub_right le _
    split_ifs <;> first | omega | linarith
  · have := halfEven_le_floor_add_one x
    have := floor_le_halfEven y
    omega

@[simp]
theorem halfEven_intCast (n : ℤ) : halfEven n = n := by
  rw [halfEven, Int.floor_intCast, sub_self, if_pos (by norm_num)]

theorem abs_halfEven_sub_le (x : ℚ) : |(halfEven x : ℚ) - x| ≤ 1 / 2 := by
  have low := Int.floor_le x
  have high := Int.lt_floor_add_one x
  unfold halfEven
  split_ifs <;> push_cast <;> rw [abs_le] <;> constructor <;> linarith

/-! ## To the nearest double -/

/-- The unit in the last place of a double of this magnitude. -/
def quantum (q : ℚ) : ℚ := 2 ^ (Int.log 2 q - 52)

theorem quantum_pos (q : ℚ) : 0 < quantum q := zpow_pos two_pos _

/-- A positive number, rounded. -/
def roundMagnitude (q : ℚ) : ℚ := halfEven (q / quantum q) * quantum q

/-- The double that stands for the exact result of an operation. -/
def nearest (q : ℚ) : ℚ := if 0 ≤ q then roundMagnitude q else -roundMagnitude (-q)

theorem nearest_of_nonneg (nonneg : 0 ≤ q) : nearest q = roundMagnitude q := if_pos nonneg

theorem nearest_of_neg (neg : q < 0) : nearest q = -roundMagnitude (-q) := if_neg (not_le.mpr neg)

@[simp]
theorem nearest_zero : nearest 0 = 0 := by
  have near : halfEven 0 = 0 := halfEven_intCast 0
  rw [nearest_of_nonneg le_rfl, roundMagnitude, zero_div, near, Int.cast_zero, zero_mul]

/-- The powers of two between which a positive number lies, in units in its last place. -/
theorem zpow_log_eq (q : ℚ) : (2 : ℚ) ^ Int.log 2 q = 2 ^ 52 * quantum q := by
  rw [quantum, zpow_sub₀ two_ne_zero]
  norm_num
  ring

theorem le_roundMagnitude (pos : 0 < q) : (2 : ℚ) ^ Int.log 2 q ≤ roundMagnitude q := by
  have low : (2 : ℚ) ^ Int.log 2 q ≤ q := by
    exact_mod_cast Int.zpow_log_le_self one_lt_two pos
  have unit := quantum_pos q
  rw [zpow_log_eq] at low ⊢
  have least : ((2 ^ 52 : ℤ) : ℚ) ≤ q / quantum q := by
    rw [le_div_iff₀ unit]
    exact_mod_cast low
  have near := halfEven_mono least
  rw [halfEven_intCast] at near
  have near : ((2 ^ 52 : ℤ) : ℚ) ≤ halfEven (q / quantum q) := by exact_mod_cast near
  rw [roundMagnitude]
  apply mul_le_mul_of_nonneg_right _ unit.le
  exact_mod_cast near

theorem roundMagnitude_le (q : ℚ) : roundMagnitude q ≤ (2 : ℚ) ^ (Int.log 2 q + 1) := by
  have high : q < (2 : ℚ) ^ (Int.log 2 q + 1) := by
    exact_mod_cast Int.lt_zpow_succ_log_self one_lt_two q
  have unit := quantum_pos q
  rw [zpow_add_one₀ two_ne_zero, zpow_log_eq] at high ⊢
  have most : q / quantum q ≤ ((2 ^ 53 : ℤ) : ℚ) := by
    rw [div_le_iff₀ unit]
    push_cast
    linarith
  have near := halfEven_mono most
  rw [halfEven_intCast] at near
  have near : (halfEven (q / quantum q) : ℚ) ≤ ((2 ^ 53 : ℤ) : ℚ) := by exact_mod_cast near
  rw [roundMagnitude]
  calc halfEven (q / quantum q) * quantum q
      ≤ ((2 ^ 53 : ℤ) : ℚ) * quantum q := mul_le_mul_of_nonneg_right near unit.le
    _ = 2 ^ 52 * quantum q * 2 := by push_cast; ring

theorem roundMagnitude_pos (pos : 0 < q) : 0 < roundMagnitude q :=
  (zpow_pos two_pos _).trans_le (le_roundMagnitude pos)

theorem roundMagnitude_mono (pos : 0 < q) (le : q ≤ r) : roundMagnitude q ≤ roundMagnitude r := by
  rcases (Int.log_mono_right (b := 2) pos le).eq_or_lt with same | less
  · have unit : quantum q = quantum r := by rw [quantum, quantum, same]
    have near := halfEven_mono (div_le_div_of_nonneg_right le (quantum_pos r).le)
    rw [roundMagnitude, roundMagnitude, unit]
    apply mul_le_mul_of_nonneg_right _ (quantum_pos r).le
    exact_mod_cast near
  · calc roundMagnitude q
        ≤ (2 : ℚ) ^ (Int.log 2 q + 1) := roundMagnitude_le q
      _ ≤ (2 : ℚ) ^ Int.log 2 r := zpow_le_zpow_right₀ one_le_two less
      _ ≤ roundMagnitude r := le_roundMagnitude (pos.trans_le le)

/-! ## What rounding keeps -/

theorem nearest_pos (pos : 0 < q) : 0 < nearest q := by
  rw [nearest_of_nonneg pos.le]
  exact roundMagnitude_pos pos

theorem nearest_neg (neg : q < 0) : nearest q < 0 := by
  rw [nearest_of_neg neg]
  exact neg_lt_zero.mpr (roundMagnitude_pos (neg_pos.mpr neg))

/-- Rounding does not turn the sign of a result, nor make it zero. -/
theorem nearest_nonpos_iff : nearest q ≤ 0 ↔ q ≤ 0 := by
  constructor
  · intro rounded
    by_contra pos
    exact absurd (nearest_pos (not_le.mp pos)) (not_lt.mpr rounded)
  · intro nonpos
    rcases nonpos.eq_or_lt with rfl | neg
    · exact nearest_zero.le
    · exact (nearest_neg neg).le

theorem nearest_pos_iff : 0 < nearest q ↔ 0 < q := by
  rw [← not_le, ← not_le, nearest_nonpos_iff]

theorem nearest_mono (le : q ≤ r) : nearest q ≤ nearest r := by
  rcases lt_or_ge r 0 with below | nonneg
  · have neg := le.trans_lt below
    rw [nearest_of_neg neg, nearest_of_neg below]
    exact neg_le_neg (roundMagnitude_mono (neg_pos.mpr below) (neg_le_neg le))
  · rcases nonneg.eq_or_lt with rfl | pos
    · rw [nearest_zero]
      exact nearest_nonpos_iff.mpr le
    · rcases lt_trichotomy q 0 with neg | rfl | positive
      · exact (nearest_neg neg).le.trans (nearest_pos pos).le
      · rw [nearest_zero]
        exact (nearest_pos pos).le
      · rw [nearest_of_nonneg positive.le, nearest_of_nonneg pos.le]
        exact roundMagnitude_mono positive le

theorem abs_roundMagnitude_sub_le (pos : 0 < q) : |roundMagnitude q - q| ≤ q / 2 ^ 53 := by
  have low : (2 : ℚ) ^ Int.log 2 q ≤ q := by
    exact_mod_cast Int.zpow_log_le_self one_lt_two pos
  have unit := quantum_pos q
  rw [zpow_log_eq] at low
  have exact_ : roundMagnitude q - q =
      ((halfEven (q / quantum q) : ℚ) - q / quantum q) * quantum q := by
    rw [roundMagnitude, sub_mul, div_mul_cancel₀ _ unit.ne']
  rw [exact_, abs_mul, abs_of_pos unit]
  calc |(halfEven (q / quantum q) : ℚ) - q / quantum q| * quantum q
      ≤ 1 / 2 * quantum q := mul_le_mul_of_nonneg_right (abs_halfEven_sub_le _) unit.le
    _ ≤ q / 2 ^ 53 := by
        rw [le_div_iff₀ (by norm_num)]
        linarith

/-- Of a result no more than one part in 2^53 is lost. -/
theorem abs_nearest_sub_le (q : ℚ) : |nearest q - q| ≤ |q| / 2 ^ 53 := by
  rcases lt_trichotomy q 0 with neg | rfl | pos
  · have bound := abs_roundMagnitude_sub_le (neg_pos.mpr neg)
    rw [nearest_of_neg neg, abs_of_neg neg, ← abs_neg]
    rwa [neg_sub, sub_neg_eq_add, add_comm, ← sub_neg_eq_add]
  · simp
  · rw [nearest_of_nonneg pos.le, abs_of_pos pos]
    exact abs_roundMagnitude_sub_le pos

theorem sub_le_nearest (q : ℚ) : q - |q| / 2 ^ 53 ≤ nearest q := by
  have bound := (abs_le.mp (abs_nearest_sub_le q)).1
  linarith

theorem nearest_le_add (q : ℚ) : nearest q ≤ q + |q| / 2 ^ 53 := by
  have bound := (abs_le.mp (abs_nearest_sub_le q)).2
  linarith

end Binary64
