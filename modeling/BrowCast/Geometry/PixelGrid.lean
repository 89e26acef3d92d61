import Mathlib.Algebra.Order.Floor.Ring
import Mathlib.Algebra.Order.Field.Basic
import Mathlib.Data.Int.ConditionallyCompleteOrder
import Mathlib.Tactic.Linarith

/-! # Axes of pixels

An axis cut into cells of equal size, the cell a point falls into, and the nearest one for points
beyond the ends. Cutting off finds the cell; rounding finds it in the first half of each cell, and
where clamping hides the difference. -/

namespace BrowCast

/-- An axis of `count` cells of equal size. -/
structure PixelGrid (K : Type*) [Field K] [LinearOrder K] where
  start : K
  size : K
  count : ℕ
  size_pos : 0 < size
  count_pos : 0 < count

namespace PixelGrid

variable {K : Type*} [Field K] [LinearOrder K] [IsStrictOrderedRing K] [FloorRing K]

/-- Where a point is, counted in cells from the start. -/
def position (g : PixelGrid K) (c : K) : K := (c - g.start) / g.size

/-- The points of a cell. -/
def InCell (g : PixelGrid K) (i : ℤ) (c : K) : Prop :=
  g.start + i * g.size ≤ c ∧ c < g.start + (i + 1) * g.size

/-- The cell a point falls into; beyond the ends, the first or the last. -/
def Nearest (g : PixelGrid K) (c : K) (i : ℤ) : Prop :=
  (0 ≤ i ∧ i < g.count ∧ g.InCell i c) ∨ (c < g.start ∧ i = 0) ∨
    (g.start + g.count * g.size ≤ c ∧ i = g.count - 1)

/-- A number of a cell, clamped to the axis. -/
def clamp (g : PixelGrid K) (i : ℤ) : ℤ := max 0 (min i (g.count - 1))

/-- The point lies in the first half of its cell, or where there is only one cell to choose: before
the axis, or from the last cell on. -/
def InFirstHalf (g : PixelGrid K) (c : K) : Prop :=
  2 • Int.fract (g.position c) < 1 ∨ g.position c < 0 ∨ (g.count : K) - 1 ≤ g.position c

instance (g : PixelGrid K) (i : ℤ) (c : K) : Decidable (g.InCell i c) :=
  inferInstanceAs (Decidable (_ ∧ _))

instance (g : PixelGrid K) (c : K) (i : ℤ) : Decidable (g.Nearest c i) :=
  inferInstanceAs (Decidable (_ ∨ _ ∨ _))

instance (g : PixelGrid K) (c : K) : Decidable (g.InFirstHalf c) :=
  inferInstanceAs (Decidable (_ ∨ _ ∨ _))

variable (g : PixelGrid K) {c : K} {i : ℤ}

/-- A point is in a cell when its position has the number of the cell as its floor. -/
theorem inCell_iff : g.InCell i c ↔ ⌊g.position c⌋ = i := by
  rw [Int.floor_eq_iff, position, le_div_iff₀ g.size_pos, div_lt_iff₀ g.size_pos, InCell]
  constructor
  · rintro ⟨hle, hlt⟩
    constructor <;> linarith
  · rintro ⟨hle, hlt⟩
    constructor <;> linarith

/-- Points before the grid have negative positions. -/
theorem lt_start_iff : c < g.start ↔ ⌊g.position c⌋ < 0 := by
  rw [Int.floor_lt, position, div_lt_iff₀ g.size_pos, Int.cast_zero, zero_mul, sub_neg]

/-- Points after the grid have positions from the number of cells on. -/
theorem end_le_iff : g.start + g.count * g.size ≤ c ↔ (g.count : ℤ) ≤ ⌊g.position c⌋ := by
  rw [Int.le_floor, position, le_div_iff₀ g.size_pos, Int.cast_natCast]
  constructor <;> intro h <;> linarith

/-- Cutting off and clamping find the nearest cell. -/
theorem nearest_iff : g.Nearest c i ↔ i = g.clamp ⌊g.position c⌋ := by
  have hcount := g.count_pos
  rw [Nearest, inCell_iff, lt_start_iff, end_le_iff, clamp]
  generalize ⌊g.position c⌋ = j
  omega

/-- Rounding differs from cutting off in the second half of a cell. -/
theorem floor_add_half (u : K) :
    ⌊u + 1 / 2⌋ = if 2 • Int.fract u < 1 then ⌊u⌋ else ⌊u⌋ + 1 := by
  rw [two_nsmul]
  have hsplit := Int.floor_add_fract u
  have hlower := Int.fract_nonneg u
  have hupper := Int.fract_lt_one u
  split
  · rw [Int.floor_eq_iff]
    constructor <;> linarith
  · rw [Int.floor_eq_iff]
    push_cast
    constructor <;> linarith

/-- **When rounding finds the nearest cell.** -/
theorem nearest_round_iff :
    g.Nearest c (g.clamp ⌊g.position c + 1 / 2⌋) ↔ g.InFirstHalf c := by
  have hcount := g.count_pos
  have hbefore : g.position c < 0 ↔ ⌊g.position c⌋ < 0 := by rw [Int.floor_lt, Int.cast_zero]
  have hlast : (g.count : K) - 1 ≤ g.position c ↔ (g.count : ℤ) - 1 ≤ ⌊g.position c⌋ := by
    rw [Int.le_floor, Int.cast_sub, Int.cast_natCast, Int.cast_one]
  rw [nearest_iff, InFirstHalf, floor_add_half, hbefore, hlast, clamp, clamp]
  split
  · next hhalf => exact iff_of_true rfl (Or.inl hhalf)
  · next hhalf =>
      rw [or_iff_right hhalf]
      omega

omit [IsStrictOrderedRing K] [FloorRing K] in
/-- Clamping gives the number of a cell. -/
theorem clamp_mem_Icc (i : ℤ) : g.clamp i ∈ Set.Icc 0 ((g.count : ℤ) - 1) := by
  have hcount := g.count_pos
  rw [clamp, Set.mem_Icc]
  omega

/-- Points further along the axis get a number that is not smaller. -/
theorem monotone_clamp_round : Monotone fun c => g.clamp ⌊g.position c + 1 / 2⌋ := by
  intro c d hcd
  have hposition : g.position c ≤ g.position d :=
    div_le_div_of_nonneg_right (sub_le_sub_right hcd _) g.size_pos.le
  have hround : ⌊g.position c + 1 / 2⌋ ≤ ⌊g.position d + 1 / 2⌋ :=
    Int.floor_mono (by linarith)
  exact max_le_max le_rfl (min_le_min hround le_rfl)

end PixelGrid

end BrowCast
