import Mathlib.Data.Nat.Notation
import Mathlib.Tactic.Positivity
import Mathlib.Tactic.Ring

/-! # Numbers as bytes, the most significant one first -/

namespace BrowCast.BigEndian

/-- The number whose digits to the base 256 the bytes are. -/
def value : List UInt8 → ℕ
  | [] => 0
  | b :: bs => b.toNat * 256 ^ bs.length + value bs

/-- The `count` lowest digits of a number. -/
def bytes : ℕ → ℕ → List UInt8
  | 0, _ => []
  | count + 1, n => UInt8.ofNat (n / 256 ^ count) :: bytes count n

/-- There are as many bytes as were asked for. -/
@[simp] theorem length_bytes (count n : ℕ) : (bytes count n).length = count := by
  induction count with
  | zero => rfl
  | succ count ih => rw [bytes, List.length_cons, ih]

/-- The value of bytes is below that of one more byte. -/
theorem value_lt (bs : List UInt8) : value bs < 256 ^ bs.length := by
  induction bs with
  | nil => exact Nat.one_pos
  | cons b bs ih =>
      have hb := b.toNat_lt
      rw [value, List.length_cons, pow_succ]
      calc b.toNat * 256 ^ bs.length + value bs
          < b.toNat * 256 ^ bs.length + 256 ^ bs.length := by omega
        _ = (b.toNat + 1) * 256 ^ bs.length := by ring
        _ ≤ 256 * 256 ^ bs.length := Nat.mul_le_mul_right _ hb
        _ = 256 ^ bs.length * 256 := Nat.mul_comm ..

/-- **Reading the digits** gives the number back, up to those that are left out. -/
theorem value_bytes (count n : ℕ) : value (bytes count n) = n % 256 ^ count := by
  induction count with
  | zero => rw [bytes, value, pow_zero, Nat.mod_one]
  | succ count ih =>
      have hdigit : (UInt8.ofNat (n / 256 ^ count)).toNat = n / 256 ^ count % 256 := by simp
      rw [bytes, value, length_bytes, ih, hdigit, pow_succ, Nat.mod_mul, Nat.mul_comm]
      omega

/-- Higher digits do not matter. -/
theorem bytes_add (count m n : ℕ) : bytes count (m * 256 ^ count + n) = bytes count n := by
  induction count generalizing m with
  | zero => rfl
  | succ count ih =>
      have hlow : m * 256 ^ (count + 1) + n = m * 256 * 256 ^ count + n := by ring
      have hdigit : UInt8.ofNat ((m * 256 * 256 ^ count + n) / 256 ^ count) =
          UInt8.ofNat (n / 256 ^ count) := by
        rw [Nat.add_comm, Nat.add_mul_div_right _ _ (by positivity)]
        apply UInt8.toNat_inj.mp
        simp
      rw [hlow, bytes, bytes, hdigit, ih]

/-- **The digits of what was read** are the bytes. -/
theorem bytes_value (bs : List UInt8) : bytes bs.length (value bs) = bs := by
  induction bs with
  | nil => rfl
  | cons b bs ih =>
      have hlt := value_lt bs
      have hdigit : (b.toNat * 256 ^ bs.length + value bs) / 256 ^ bs.length = b.toNat := by
        rw [Nat.add_comm, Nat.add_mul_div_right _ _ (by positivity), Nat.div_eq_of_lt hlt,
          Nat.zero_add]
      rw [List.length_cons, value, bytes, hdigit, UInt8.ofNat_toNat, bytes_add, ih]

/-- The lower bytes of a number are those of a shorter field. -/
theorem drop_bytes (skipped count n : ℕ) :
    (bytes (skipped + count) n).drop skipped = bytes count n := by
  induction skipped with
  | zero => rw [Nat.zero_add, List.drop_zero]
  | succ skipped ih =>
      rw [Nat.add_right_comm, bytes, List.drop_succ_cons, ih]

end BrowCast.BigEndian
