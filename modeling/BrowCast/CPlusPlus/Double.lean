import Mathlib.Data.Int.Log
import Mathlib.Data.Rat.Floor
import Mathlib.Tactic.FieldSimp
import Mathlib.Tactic.Linarith
import Mathlib.Tactic.Ring

/-! # Binary floating point over the rationals

Rounding a rational to a binary format: to the nearest multiple of the spacing the format has at
its magnitude, ties to the even multiple. A `double` has 53 bits of precision and no multiple below
`2 ^ (-1074)`; an operation on doubles is the operation on rationals, rounded once. Overflow to an
infinity is left out, so the results are those of the language below `2 ^ 1024` in magnitude.

The conversion of a floating-point number to an integer type drops the fraction. -/

namespace BrowCast

/-! ## Truncation -/

/-- A number without its fraction. -/
def truncated (q : ℚ) : ℤ := Int.tdiv q.num q.den

/-- Truncation rounds a number that is not negative down. -/
theorem truncated_of_nonneg {q : ℚ} (hq : 0 ≤ q) : truncated q = ⌊q⌋ := by
  rw [truncated, Int.tdiv_eq_ediv_of_nonneg (Rat.num_nonneg.mpr hq), Rat.floor_def']

/-- Truncation commutes with the sign. -/
theorem truncated_neg (q : ℚ) : truncated (-q) = -truncated q := by
  rw [truncated, truncated, Rat.neg_num, Rat.neg_den, Int.neg_tdiv]

/-- Truncation keeps an integer. -/
@[simp] theorem truncated_intCast (z : ℤ) : truncated z = z := by
  rw [truncated, Rat.num_intCast, Rat.den_intCast, Nat.cast_one, Int.tdiv_one]

/-- Truncation of a quotient of naturals, by their division. -/
theorem num_ediv_den (m : ℚ≥0) : (m.num : ℤ) / m.den = truncated m := by
  rw [truncated_of_nonneg m.coe_nonneg, Rat.floor_def', NNRat.num_coe, NNRat.den_coe]

/-! ## Rounding to an integer -/

/-- The nearest integer; of two that are equally near, the even one. -/
def roundHalfEven (q : ℚ) : ℤ :=
  if q - ⌊q⌋ < 1 / 2 then ⌊q⌋
  else if 1 / 2 < q - ⌊q⌋ then ⌊q⌋ + 1
  else if ⌊q⌋ % 2 = 0 then ⌊q⌋
  else ⌊q⌋ + 1

/-- Rounding to an integer errs by at most one half. -/
theorem abs_roundHalfEven_sub_le (q : ℚ) : |(roundHalfEven q : ℚ) - q| ≤ 1 / 2 := by
  have hlower : (⌊q⌋ : ℚ) ≤ q := Int.floor_le q
  have hupper : q < ⌊q⌋ + 1 := Int.lt_floor_add_one q
  rw [abs_le, roundHalfEven]
  split_ifs with hbelow habove heven
  · constructor <;> linarith
  · push_cast
    constructor <;> linarith
  · constructor <;> linarith
  · push_cast
    constructor <;> linarith

/-! ## Rounding to a format -/

section Format

variable (precision : ℕ) (least : ℤ)

/-- The distance between neighbours at the magnitude of `q`, in the format with this `precision`
whose numbers are multiples of `2 ^ least`. -/
def spacing (q : ℚ) : ℚ := 2 ^ max (Int.log 2 |q| - (precision - 1)) least

/-- The number of the format that is nearest to `q`. -/
def roundTo (q : ℚ) : ℚ :=
  roundHalfEven (q / spacing precision least q) * spacing precision least q

variable {precision least} {q : ℚ}

/-- The spacing is positive. -/
theorem spacing_pos : 0 < spacing precision least q := zpow_pos (by norm_num) _

/-- Rounding errs by at most half the spacing. -/
theorem abs_roundTo_sub_le :
    |roundTo precision least q - q| ≤ spacing precision least q / 2 := by
  have hpos : 0 < spacing precision least q := spacing_pos
  have hnear := abs_roundHalfEven_sub_le (q / spacing precision least q)
  have hscaled : roundTo precision least q - q =
      (roundHalfEven (q / spacing precision least q) - q / spacing precision least q) *
        spacing precision least q := by
    rw [roundTo, sub_mul, div_mul_cancel₀ _ hpos.ne']
  calc |roundTo precision least q - q|
      = |roundHalfEven (q / spacing precision least q) - q / spacing precision least q| *
          spacing precision least q := by rw [hscaled, abs_mul, abs_of_pos hpos]
    _ ≤ 1 / 2 * spacing precision least q := mul_le_mul_of_nonneg_right hnear hpos.le
    _ = spacing precision least q / 2 := by ring

/-- In the normal range the spacing is small against the number. -/
theorem spacing_le (hnormal : (2 : ℚ) ^ (least + (precision - 1)) ≤ |q|) :
    spacing precision least q ≤ |q| / 2 ^ ((precision : ℤ) - 1) := by
  have hpos : 0 < |q| := lt_of_lt_of_le (zpow_pos (by norm_num) _) hnormal
  have hlog : least + (precision - 1) ≤ Int.log 2 |q| :=
    (Int.zpow_le_iff_le_log (by norm_num) hpos).mp hnormal
  have hbase : (2 : ℚ) ^ Int.log 2 |q| ≤ |q| := Int.zpow_log_le_self (by norm_num) hpos
  rw [spacing, max_eq_left (by omega), zpow_sub₀ (by norm_num)]
  exact div_le_div_of_nonneg_right hbase (zpow_pos (by norm_num) _).le

end Format

/-! ## Doubles -/

/-- The `double` nearest to `q`. -/
def toDouble (q : ℚ) : ℚ := roundTo 53 (-1074) q

/-- Rounding to a `double` errs by at most one part in `2 ^ 53`, in the normal range. -/
theorem abs_toDouble_sub_le {q : ℚ} (hnormal : (2 : ℚ) ^ (-1022 : ℤ) ≤ |q|) :
    |toDouble q - q| ≤ |q| / 9007199254740992 := by
  have hspacing : spacing 53 (-1074) q ≤ |q| / 4503599627370496 := by
    have hsmall := @spacing_le 53 (-1074) q (le_of_eq_of_le (by norm_num) hnormal)
    norm_num at hsmall
    exact hsmall
  calc |toDouble q - q| ≤ spacing 53 (-1074) q / 2 := abs_roundTo_sub_le
    _ ≤ |q| / 4503599627370496 / 2 := by gcongr
    _ = |q| / 9007199254740992 := by ring

/-- `0.1 + 0.2` in doubles is not the double of `0.3`. -/
example : toDouble (toDouble (1 / 10) + toDouble (2 / 10)) ≠ toDouble (3 / 10) := by decide +kernel

end BrowCast
