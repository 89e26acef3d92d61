import Mathlib.Data.Int.Notation
import Mathlib.Data.Nat.Notation

/-! # 32-bit `int` arithmetic

The operators of a 32-bit `int` on mathematical integers. Signed overflow is undefined in the
language; here it wraps around as in two's complement, and `FitsInt` says when there is none, so
that every statement can tell the two apart. Division truncates towards zero. -/

namespace BrowCast

namespace CInt

/-- The value is representable as an `int`. -/
def FitsInt (z : ℤ) : Prop := -2147483648 ≤ z ∧ z ≤ 2147483647

instance (z : ℤ) : Decidable (FitsInt z) := inferInstanceAs (Decidable (_ ∧ _))

/-- The low 32 bits, read in two's complement. -/
def wrap (z : ℤ) : ℤ := Int.bmod z 4294967296

/-- `a + b`. -/
def add (a b : ℤ) : ℤ := wrap (a + b)

/-- `a * b`. -/
def mul (a b : ℤ) : ℤ := wrap (a * b)

/-- `a / b`, for a divisor other than zero. -/
def div (a b : ℤ) : ℤ := Int.tdiv a b

/-- A representable value is its low 32 bits. -/
theorem wrap_of_fits {z : ℤ} (h : FitsInt z) : wrap z = z := by
  obtain ⟨hle, hlt⟩ := h
  exact Int.bmod_eq_of_le_mul_two (by omega) (by omega)

/-- A sum that fits does not overflow. -/
theorem add_of_fits {a b : ℤ} (h : FitsInt (a + b)) : add a b = a + b := wrap_of_fits h

/-- A product that fits does not overflow. -/
theorem mul_of_fits {a b : ℤ} (h : FitsInt (a * b)) : mul a b = a * b := wrap_of_fits h

/-- On a non-negative dividend and a positive divisor the quotient is the floor. -/
theorem div_of_nonneg {a b : ℤ} (ha : 0 ≤ a) : div a b = a / b := Int.tdiv_eq_ediv_of_nonneg ha

/-- A quotient of a number that is not positive is not positive. -/
theorem div_nonpos_of_nonpos {a b : ℤ} (ha : a ≤ 0) (hb : 0 ≤ b) : div a b ≤ 0 := by
  have h : 0 ≤ Int.tdiv (-a) b := Int.tdiv_nonneg (by omega) hb
  rw [Int.neg_tdiv] at h
  unfold div
  omega

end CInt

end BrowCast
