import BrowCast.JavaScript.Number
import Mathlib.Algebra.Order.Ring.NNRat

/-! # Arithmetic of JavaScript numbers

When the operations give finite numbers, and what clamping a number does. -/

namespace BrowCast.Number

/-! ## Finite numbers -/

/-- A finite number. -/
def IsFinite (a : Number) : Prop := ∃ s m, a = .finite s m

/-- A finite number above zero. -/
def IsPositive (a : Number) : Prop := ∃ m : ℚ≥0, 0 < m ∧ a = .finite false m

/-- The rational zero is `+0`. -/
theorem ofRat_zero : ofRat 0 = .finite false 0 := by decide +kernel

/-- The rational one is `1`. -/
theorem ofRat_one : ofRat 1 = .finite false 1 := by decide +kernel

/-- The number of a rational is finite. -/
theorem isFinite_ofRat (q : ℚ) : IsFinite (ofRat q) := ⟨_, _, rfl⟩

/-- The number of a positive rational is positive. -/
theorem isPositive_ofRat {q : ℚ} (hq : 0 < q) : IsPositive (ofRat q) := by
  refine ⟨⟨|q|, abs_nonneg q⟩, ?_, ?_⟩
  · exact abs_pos.mpr hq.ne'
  · rw [ofRat, decide_eq_false hq.le.not_gt]

section Closure

variable {a b : Number}

/-- A positive number is finite. -/
theorem IsPositive.isFinite (h : IsPositive a) : IsFinite a := by
  obtain ⟨m, -, rfl⟩ := h
  exact ⟨_, _, rfl⟩

/-- A finite number that compares greater than zero is positive. -/
theorem isPositive_of_greater (ha : IsFinite a) (hpos : a.greater (ofRat 0) = true) :
    IsPositive a := by
  obtain ⟨_ | _, m, rfl⟩ := ha
  · exact ⟨m, by simpa [ofRat_zero, greater] using hpos, rfl⟩
  · simp [ofRat_zero, greater] at hpos

/-- Sums of finite numbers are finite. -/
theorem IsFinite.add (ha : IsFinite a) (hb : IsFinite b) : IsFinite (a.add b) := by
  obtain ⟨s, m, rfl⟩ := ha
  obtain ⟨t, n, rfl⟩ := hb
  rw [Number.add]
  split_ifs <;> exact ⟨_, _, rfl⟩

/-- Differences of finite numbers are finite. -/
theorem IsFinite.sub (ha : IsFinite a) (hb : IsFinite b) : IsFinite (a.sub b) := by
  obtain ⟨t, n, rfl⟩ := hb
  exact ha.add ⟨_, _, rfl⟩

/-- Products of finite numbers are finite. -/
theorem IsFinite.mul (ha : IsFinite a) (hb : IsFinite b) : IsFinite (a.mul b) := by
  obtain ⟨s, m, rfl⟩ := ha
  obtain ⟨t, n, rfl⟩ := hb
  exact ⟨_, _, rfl⟩

/-- Quotients of finite numbers by positive ones are finite. -/
theorem IsFinite.div (ha : IsFinite a) (hb : IsPositive b) : IsFinite (a.div b) := by
  obtain ⟨s, m, rfl⟩ := ha
  obtain ⟨n, hn, rfl⟩ := hb
  rw [Number.div, if_neg hn.ne']
  exact ⟨_, _, rfl⟩

/-- Rounding keeps a number finite. -/
theorem IsFinite.round (ha : IsFinite a) : IsFinite a.round := by
  obtain ⟨s, m, rfl⟩ := ha
  exact ⟨_, _, rfl⟩

/-- The lesser of two finite numbers is finite. -/
theorem IsFinite.min (ha : IsFinite a) (hb : IsFinite b) : IsFinite (Number.min a b) := by
  obtain ⟨s, m, rfl⟩ := ha
  obtain ⟨t, n, rfl⟩ := hb
  unfold Number.min
  simp only
  split_ifs <;> exact ⟨_, _, rfl⟩

/-- The greater of two finite numbers is finite. -/
theorem IsFinite.max (ha : IsFinite a) (hb : IsFinite b) : IsFinite (Number.max a b) := by
  obtain ⟨s, m, rfl⟩ := ha
  obtain ⟨t, n, rfl⟩ := hb
  unfold Number.max
  simp only
  split_ifs <;> exact ⟨_, _, rfl⟩

/-- Products of positive numbers are positive. -/
theorem IsPositive.mul (ha : IsPositive a) (hb : IsPositive b) : IsPositive (a.mul b) := by
  obtain ⟨m, hm, rfl⟩ := ha
  obtain ⟨n, hn, rfl⟩ := hb
  exact ⟨m * n, mul_pos hm hn, rfl⟩

/-- Quotients of positive numbers are positive. -/
theorem IsPositive.div (ha : IsPositive a) (hb : IsPositive b) : IsPositive (a.div b) := by
  obtain ⟨m, hm, rfl⟩ := ha
  obtain ⟨n, hn, rfl⟩ := hb
  refine ⟨m / n, div_pos hm hn, ?_⟩
  rw [Number.div, if_neg hn.ne', Bool.xor_false]

end Closure

/-! ## The values of finite numbers -/

/-- The rational a finite number stands for. -/
def toRat : Number → ℚ
  | .finite s m => if s then -(m : ℚ) else m
  | .nan | .infinity _ => 0

/-- The value of a number in sign-magnitude form. -/
@[simp] theorem toRat_finite (s : Bool) (m : ℚ≥0) :
    (finite s m).toRat = if s then -(m : ℚ) else m := rfl

/-- The number of a rational has that value. -/
theorem toRat_ofRat (q : ℚ) : (ofRat q).toRat = q := by
  show (if decide (q < 0) then -|q| else |q|) = q
  by_cases hq : q < 0
  · simp [hq, abs_of_neg hq]
  · simp [hq, abs_of_nonneg (not_lt.mp hq)]

section Values

variable {a b : Number}

/-- Changing the sign negates the value. -/
theorem toRat_neg (ha : IsFinite a) : a.neg.toRat = -a.toRat := by
  obtain ⟨s, m, rfl⟩ := ha
  cases s <;> simp [neg]

/-- Addition adds the values. -/
theorem toRat_add (ha : IsFinite a) (hb : IsFinite b) : (a.add b).toRat = a.toRat + b.toRat := by
  obtain ⟨s, m, rfl⟩ := ha
  obtain ⟨t, n, rfl⟩ := hb
  rw [Number.add]
  split_ifs with hsign heq hlt
  · subst hsign
    cases s <;> simp [add_comm]
  · subst heq
    cases s <;> cases t <;> simp at hsign ⊢
  · have hcast : ((m - n : ℚ≥0) : ℚ) = m - n := NNRat.coe_sub hlt.le
    cases s <;> cases t <;> simp [hcast] at hsign ⊢ <;> ring
  · have hle : m ≤ n := not_lt.mp hlt
    have hcast : ((n - m : ℚ≥0) : ℚ) = n - m := NNRat.coe_sub hle
    cases s <;> cases t <;> simp [hcast] at hsign ⊢ <;> ring

/-- Subtraction subtracts the values. -/
theorem toRat_sub (ha : IsFinite a) (hb : IsFinite b) : (a.sub b).toRat = a.toRat - b.toRat := by
  have hneg : IsFinite b.neg := by
    obtain ⟨t, n, rfl⟩ := hb
    exact ⟨_, _, rfl⟩
  rw [sub, toRat_add ha hneg, toRat_neg hb, sub_eq_add_neg]

/-- Multiplication multiplies the values. -/
theorem toRat_mul (ha : IsFinite a) (hb : IsFinite b) : (a.mul b).toRat = a.toRat * b.toRat := by
  obtain ⟨s, m, rfl⟩ := ha
  obtain ⟨t, n, rfl⟩ := hb
  cases s <;> cases t <;> simp [mul]

/-- Division by a positive number divides the values. -/
theorem toRat_div (ha : IsFinite a) (hb : IsPositive b) :
    (a.div b).toRat = a.toRat / b.toRat := by
  obtain ⟨s, m, rfl⟩ := ha
  obtain ⟨n, hn, rfl⟩ := hb
  rw [div, if_neg hn.ne']
  cases s <;> simp [neg_div]

/-- `Math.round` rounds the value to the nearest integer, halves upwards. -/
theorem toRat_round (ha : IsFinite a) : a.round.toRat = ⌊a.toRat + 1 / 2⌋ := by
  obtain ⟨s, m, rfl⟩ := ha
  have hm : (0 : ℚ) ≤ m := m.coe_nonneg
  cases s with
  | false =>
      have hfloor : (0 : ℤ) ≤ ⌊(m : ℚ) + 1 / 2⌋ := Int.floor_nonneg.mpr (by linarith)
      have habs : ((⌊(m : ℚ) + 1 / 2⌋.natAbs : ℕ) : ℚ) = ⌊(m : ℚ) + 1 / 2⌋ := by
        rw [Nat.cast_natAbs, abs_of_nonneg hfloor]
      simpa [round] using habs
  | true =>
      have hfloor : ⌊-(m : ℚ) + 1 / 2⌋ ≤ 0 := by
        have hlt : ⌊-(m : ℚ) + 1 / 2⌋ < 1 := Int.floor_lt.mpr (by push_cast; linarith)
        omega
      have habs : ((⌊-(m : ℚ) + 1 / 2⌋.natAbs : ℕ) : ℚ) = -⌊-(m : ℚ) + 1 / 2⌋ := by
        rw [Nat.cast_natAbs, abs_of_nonpos hfloor, Int.cast_neg]
      have hneg : -((⌊-(m : ℚ) + 1 / 2⌋.natAbs : ℕ) : ℚ) = ⌊-(m : ℚ) + 1 / 2⌋ := by
        rw [habs, neg_neg]
      simpa [round] using hneg

/-- The order of `Math.min` and `Math.max` is that of the rationals, but for the zeros. -/
theorem toRat_le_of_below (ha : IsFinite a) (hb : IsFinite b) (h : below a b = true) :
    a.toRat ≤ b.toRat := by
  obtain ⟨s, m, rfl⟩ := ha
  obtain ⟨t, n, rfl⟩ := hb
  have hm : (0 : ℚ) ≤ m := m.coe_nonneg
  have hn : (0 : ℚ) ≤ n := n.coe_nonneg
  cases s <;> cases t <;> simp [below] at h ⊢
  · exact h
  · linarith
  · exact h

/-- A number that is not below another one has no smaller value. -/
theorem toRat_le_of_not_below (ha : IsFinite a) (hb : IsFinite b) (h : below a b = false) :
    b.toRat ≤ a.toRat := by
  obtain ⟨s, m, rfl⟩ := ha
  obtain ⟨t, n, rfl⟩ := hb
  have hm : (0 : ℚ) ≤ m := m.coe_nonneg
  have hn : (0 : ℚ) ≤ n := n.coe_nonneg
  cases s <;> cases t <;> simp [below] at h ⊢
  · exact h.le
  · linarith
  · exact h.le

/-- `Math.min` takes the number that is below the other. -/
theorem min_eq_ite (ha : IsFinite a) (hb : IsFinite b) :
    Number.min a b = if below a b then a else b := by
  obtain ⟨s, m, rfl⟩ := ha
  obtain ⟨t, n, rfl⟩ := hb
  rfl

/-- `Math.max` takes the number that the other one is below. -/
theorem max_eq_ite (ha : IsFinite a) (hb : IsFinite b) :
    Number.max a b = if below a b then b else a := by
  obtain ⟨s, m, rfl⟩ := ha
  obtain ⟨t, n, rfl⟩ := hb
  rfl

/-- `Math.min` takes the lesser of the values. -/
theorem toRat_min (ha : IsFinite a) (hb : IsFinite b) :
    (Number.min a b).toRat = a.toRat ⊓ b.toRat := by
  rw [min_eq_ite ha hb]
  cases h : below a b with
  | true => exact (min_eq_left (toRat_le_of_below ha hb h)).symm
  | false => exact (min_eq_right (toRat_le_of_not_below ha hb h)).symm

/-- `Math.max` takes the greater of the values. -/
theorem toRat_max (ha : IsFinite a) (hb : IsFinite b) :
    (Number.max a b).toRat = a.toRat ⊔ b.toRat := by
  rw [max_eq_ite ha hb]
  cases h : below a b with
  | true => exact (max_eq_right (toRat_le_of_below ha hb h)).symm
  | false => exact (max_eq_left (toRat_le_of_not_below ha hb h)).symm

/-- Finite numbers compare by their values. -/
theorem greater_iff (ha : IsFinite a) (hb : IsFinite b) :
    a.greater b = true ↔ b.toRat < a.toRat := by
  obtain ⟨s, m, rfl⟩ := ha
  obtain ⟨t, n, rfl⟩ := hb
  exact decide_eq_true_iff

/-- Different rationals are different numbers. -/
theorem ofRat_injective : Function.Injective ofRat := by
  intro p q h
  rw [← toRat_ofRat p, h, toRat_ofRat]

/-- A number is that of its value, but for the sign of a zero. -/
theorem ofRat_toRat {s : Bool} {m : ℚ≥0} (hm : m ≠ 0) :
    ofRat (finite s m).toRat = finite s m := by
  have hpos : (0 : ℚ) < m := by exact_mod_cast pos_of_ne_zero hm
  cases s with
  | false =>
      have hmagnitude : (⟨|(m : ℚ)|, abs_nonneg _⟩ : ℚ≥0) = m := Subtype.ext (abs_of_pos hpos)
      show finite (decide ((m : ℚ) < 0)) ⟨|(m : ℚ)|, abs_nonneg _⟩ = _
      rw [hmagnitude, decide_eq_false hpos.le.not_gt]
  | true =>
      have hmagnitude : (⟨|-(m : ℚ)|, abs_nonneg _⟩ : ℚ≥0) = m :=
        Subtype.ext ((abs_neg _).trans (abs_of_pos hpos))
      show finite (decide (-(m : ℚ) < 0)) ⟨|-(m : ℚ)|, abs_nonneg _⟩ = _
      rw [hmagnitude, decide_eq_true (neg_lt_zero.mpr hpos)]

/-- A positive number is that of its value. -/
theorem IsPositive.ofRat_toRat (ha : IsPositive a) : .ofRat a.toRat = a := by
  obtain ⟨m, hm, rfl⟩ := ha
  exact Number.ofRat_toRat hm.ne'

/-- A positive number less itself is `+0`. -/
theorem sub_self_of_isPositive (ha : IsPositive a) : a.sub a = .ofRat 0 := by
  obtain ⟨m, -, rfl⟩ := ha
  rw [ofRat_zero]
  simp [sub, neg, add]

end Values

/-! ## Where NaN comes from -/

/-- A zero of either sign. -/
def IsZero (a : Number) : Prop := ∃ s, a = .finite s 0

/-- An infinity of either sign. -/
def IsInfinite (a : Number) : Prop := ∃ s, a = .infinity s

/-- Two numbers have a quotient: neither is NaN, and they are not both zero and not both
infinite. -/
def HasQuotient (a b : Number) : Prop :=
  (a ≠ .nan ∧ b ≠ .nan) ∧ ¬ (IsZero a ∧ IsZero b) ∧ ¬ (IsInfinite a ∧ IsInfinite b)

/-- A quotient is a number exactly where the two have one. -/
theorem div_ne_nan_iff {a b : Number} : a.div b ≠ .nan ↔ HasQuotient a b := by
  unfold HasQuotient IsZero IsInfinite
  rcases a with _ | s | ⟨s, m⟩ <;> rcases b with _ | t | ⟨t, n⟩ <;> simp [div]
  split_ifs <;> simp_all

/-- A positive factor leaves the numbers their kind. -/
theorem hasQuotient_mul_iff {a b : Number} {k : ℚ≥0} (hk : k ≠ 0) :
    HasQuotient (a.mul (.ofMagnitude k)) b ↔ HasQuotient a b := by
  unfold HasQuotient IsZero IsInfinite ofMagnitude
  rcases a with _ | s | ⟨s, m⟩ <;> simp [mul, hk]

/-- The lesser of two is NaN only if one of them is. -/
theorem min_ne_nan_iff {a b : Number} : Number.min a b ≠ .nan ↔ a ≠ .nan ∧ b ≠ .nan := by
  rcases a with _ | s | ⟨s, m⟩ <;> rcases b with _ | t | ⟨t, n⟩ <;> simp [Number.min]
  all_goals split_ifs <;> simp

/-! ## Clamping -/

section Clamping

variable {a b d : Number}

/-- The minimum is at most the second number. -/
theorem min_le_right {m : ℚ≥0} (h : Number.min a b = .finite false m) :
    b = .infinity false ∨ ∃ k, b = .finite false k ∧ m ≤ k := by
  rcases a with _ | ⟨_ | _⟩ | ⟨_ | _, n⟩ <;> rcases b with _ | ⟨_ | _⟩ | ⟨_ | _, k⟩ <;>
    simp [Number.min, below] at h ⊢
  · exact h.ge
  · split at h
    · next hle =>
        cases h
        exact hle
    · cases h
      exact le_rfl
  · split at h <;> cases h

/-- The maximum with zero is zero, or the other number, which then is not negative. -/
theorem max_zero {s : Bool} {m : ℚ≥0} (h : Number.max (.ofRat 0) a = .finite s m) :
    s = false ∧ (m = 0 ∨ a = .finite false m) := by
  rw [ofRat_zero] at h
  rcases a with _ | ⟨_ | _⟩ | ⟨_ | _, n⟩ <;> simp [Number.max, below] at h ⊢
  · exact ⟨h.1, h.2.symm⟩
  · exact ⟨h.1, Or.inr h.2⟩
  · exact ⟨h.1, h.2.symm⟩

/-- What is greater than a number is greater than the smaller ones. -/
theorem greater_of_le {m k : ℚ≥0} (hle : m ≤ k) (hk : d.greater (.finite false k) = true) :
    d.greater (.finite false m) = true := by
  rcases d with _ | s | ⟨s, n⟩
  · exact hk
  · exact hk
  · have hle' : (m : ℚ) ≤ k := by exact_mod_cast hle
    simp only [greater, Bool.false_eq_true, if_false, decide_eq_true_eq] at hk ⊢
    exact hle'.trans_lt hk

/-- A number that is no greater than `b` is greater than what `b` is greater than only. -/
theorem greater_of_not_greater (hnan : b ≠ .nan) (hle : d.greater b = false) {m : ℚ≥0}
    (hd : d.greater (.finite false m) = true) : b.greater (.finite false m) = true := by
  rcases d with _ | ⟨_ | _⟩ | ⟨s, n⟩
  · cases hd
  · rcases b with _ | ⟨_ | _⟩ | ⟨t, k⟩
    · exact absurd rfl hnan
    · rfl
    · cases hle
    · cases hle
  · cases hd
  · rcases b with _ | ⟨_ | _⟩ | ⟨t, k⟩
    · exact absurd rfl hnan
    · rfl
    · cases hle
    · simp only [greater, decide_eq_false_iff_not, not_lt, decide_eq_true_eq] at hle hd ⊢
      exact hd.trans_le hle

/-- Only infinity is infinite less one. -/
theorem eq_infinity_of_sub_one (h : d.sub (.ofRat 1) = .infinity false) : d = .infinity false := by
  rw [ofRat_one, sub] at h
  rcases d with _ | s | ⟨s, m⟩
  · cases h
  · exact h
  · unfold neg add at h
    simp only at h
    split_ifs at h

/-- A number is greater than itself less one. -/
theorem greater_of_sub_one {k : ℚ≥0} (h : d.sub (.ofRat 1) = .finite false k) :
    d.greater (.finite false k) = true := by
  rw [ofRat_one, sub] at h
  rcases d with _ | s | ⟨_ | _, m⟩
  · cases h
  · cases h
  · unfold neg add at h
    simp only [Bool.not_false, Bool.false_eq_true, if_false] at h
    split_ifs at h with hone hlt
    · cases h
      rw [hone]
      decide +kernel
    · cases h
      have hless : m - 1 < m := tsub_lt_self (one_pos.trans hlt) one_pos
      simpa [greater] using hless
    · cases h
  · unfold neg add at h
    simp only [Bool.not_false, if_true] at h
    cases h

/-- **A positive number clamps what is below it**: clamped between zero and `d - 1`, a finite
number is not negative, and less than `d`. -/
theorem greater_of_clamp {s : Bool} {m : ℚ≥0} (hd : d.greater (.ofRat 0) = true)
    (h : Number.max (.ofRat 0) (Number.min a (d.sub (.ofRat 1))) = .finite s m) :
    s = false ∧ d.greater (.finite false m) = true := by
  obtain ⟨hsign, hzero | hmin⟩ := max_zero h
  · exact ⟨hsign, hzero ▸ ofRat_zero ▸ hd⟩
  · refine ⟨hsign, ?_⟩
    obtain hinfinity | ⟨k, hk, hle⟩ := min_le_right hmin
    · rw [eq_infinity_of_sub_one hinfinity]
      rfl
    · exact greater_of_le hle (greater_of_sub_one hk)

/-- A number is clamped between two others, unless it is NaN. -/
theorem exists_clamp_eq {lower upper : ℚ≥0} (hle : lower ≤ upper) (ha : a ≠ .nan) :
    ∃ m, Number.max (.ofMagnitude lower) (Number.min a (.ofMagnitude upper)) = .ofMagnitude m ∧
      lower ≤ m ∧ m ≤ upper := by
  unfold ofMagnitude
  rcases a with _ | ⟨_ | _⟩ | ⟨_ | _, n⟩
  · exact absurd rfl ha
  · exact ⟨upper, by simp [Number.min, Number.max, below, hle], hle, le_rfl⟩
  · exact ⟨lower, by simp [Number.min, Number.max, below], le_rfl, hle⟩
  · rcases le_total n upper with hn | hn
    · rcases le_total lower n with hl | hl
      · exact ⟨n, by simp [Number.min, Number.max, below, hn, hl], hl, hn⟩
      · refine ⟨lower, ?_, le_rfl, hle⟩
        rcases hl.eq_or_lt with rfl | hlt
        · simp [Number.min, Number.max, below, hn]
        · simp [Number.min, Number.max, below, hn, hlt.not_ge]
    · refine ⟨upper, ?_, hle, le_rfl⟩
      rcases hn.eq_or_lt with rfl | hlt
      · simp [Number.min, Number.max, below, hle]
      · simp [Number.min, Number.max, below, hlt.not_ge, hle]
  · exact ⟨lower, by simp [Number.min, Number.max, below], le_rfl, hle⟩

end Clamping

end BrowCast.Number
