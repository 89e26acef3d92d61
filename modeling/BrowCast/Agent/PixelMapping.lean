import BrowCast.Agent.PointerTargeting

/-! # The pixel a coordinate selects

`InjectMouseInput` scales a pixel of the screen to the absolute range, and Windows scales it back.
Both round down, and the factor of the agent is the smaller one: every pixel but the first comes
back as one to its left. -/

namespace BrowCast

/-- The pixel that a normalised coordinate selects on an axis of `w` pixels. -/
def selectedPixel (w d : ℤ) : ℤ := d * w / 65536

/-- `d` is right for the pixel `x` of an axis of `w` pixels: it is computed without overflow, lies
in the absolute range, is no smaller than those of the pixels before, and selects `x`. -/
structure HitsPixel (w x d : ℤ) : Prop where
  fits : CInt.FitsInt (x * 65535)
  range : 0 ≤ d ∧ d ≤ 65535
  monotone : ∀ x', 0 ≤ x' → x' ≤ x → normalized x' w ≤ d
  pixel : selectedPixel w d = x

section Axis

variable {w x : ℤ}

/-! ## Where there is no overflow -/

/-- The product overflows from the pixel 32769 on. -/
theorem fitsInt_mul_iff (h₀ : 0 ≤ x) : CInt.FitsInt (x * 65535) ↔ x ≤ 32768 := by
  unfold CInt.FitsInt
  omega

/-- Before that the coordinates lie in the absolute range. -/
theorem normalized_range (h₀ : 0 ≤ x) (hx : x < w) (h₁ : x ≤ 32768) :
    0 ≤ normalized x w ∧ normalized x w ≤ 65535 := by
  have hw : 0 < w := by omega
  rw [normalized_of_le h₀ h₁]
  constructor
  · exact Int.ediv_nonneg (by omega) (le_of_lt hw)
  · have hlt : 65535 * x < 65536 * w := by omega
    have hquot : 65535 * x / w < 65536 := Int.ediv_lt_of_lt_mul hw hlt
    omega

/-- They grow with the pixel. -/
theorem normalized_mono (hw : 0 < w) {x' : ℤ} (h₀ : 0 ≤ x') (hle : x' ≤ x) (h₁ : x ≤ 32768) :
    normalized x' w ≤ normalized x w := by
  rw [normalized_of_le h₀ (by omega), normalized_of_le (by omega) h₁]
  exact Int.ediv_le_ediv hw (by omega)

/-- On screens no wider than that, every pixel but the first comes back as the one to its left. -/
theorem selectedPixel_normalized (h₁ : 1 ≤ x) (hx : x < w) (hw : w ≤ 32769) :
    selectedPixel w (normalized x w) = x - 1 := by
  have hdivision : w * (65535 * x / w) + 65535 * x % w = 65535 * x := Int.mul_ediv_add_emod ..
  have hcut₀ : 0 ≤ 65535 * x % w := Int.emod_nonneg _ (by omega)
  have hcut₁ : 65535 * x % w < w := Int.emod_lt_of_pos _ (by omega)
  rw [selectedPixel, normalized_of_le (by omega) (by omega), mul_comm]
  omega

/-! ## Every pixel -/

/-- Wrapping does not make a product larger. -/
theorem mul_le_of_nonneg (h₀ : 0 ≤ x) : CInt.mul x 65535 ≤ 65535 * x := by
  by_cases hfit : CInt.FitsInt (x * 65535)
  · rw [CInt.mul_of_fits hfit]
    omega
  · have hlt : CInt.mul x 65535 < (4294967296 + 1) / 2 := Int.bmod_lt (by decide)
    unfold CInt.FitsInt at hfit
    omega

/-- A normalised coordinate is at most the exact one. -/
theorem normalized_mul_le (hw : 0 < w) (h₀ : 0 ≤ x) : normalized x w * w ≤ 65535 * x := by
  rcases le_or_gt 0 (CInt.mul x 65535) with hpos | hneg
  · rw [normalized, CInt.div_of_nonneg hpos]
    exact (Int.ediv_mul_le _ (by omega)).trans (mul_le_of_nonneg h₀)
  · have hquot : normalized x w ≤ 0 := CInt.div_nonpos_of_nonpos (le_of_lt hneg) (le_of_lt hw)
    have hprod : normalized x w * w ≤ 0 := mul_nonpos_of_nonpos_of_nonneg hquot (le_of_lt hw)
    omega

/-- Overflow or not, a pixel that is not the first one is not hit. -/
theorem selectedPixel_lt (hw : 0 < w) (h₁ : 1 ≤ x) : selectedPixel w (normalized x w) < x := by
  have hle := normalized_mul_le hw (by omega : 0 ≤ x)
  unfold selectedPixel
  omega

/-- On one axis the normalised coordinate hits the first pixel only. -/
theorem hitsPixel_normalized_iff (hw : 0 < w) (h₀ : 0 ≤ x) :
    HitsPixel w x (normalized x w) ↔ x = 0 := by
  constructor
  · intro hhit
    by_contra hne
    exact absurd hhit.pixel (ne_of_lt (selectedPixel_lt hw (by omega)))
  · rintro rfl
    have hzero : normalized 0 w = 0 := by
      rw [normalized_of_le le_rfl (by decide)]
      simp
    rw [hzero]
    refine ⟨by decide, by decide, fun x' h₀ h₁ => ?_, by simp [selectedPixel]⟩
    rw [le_antisymm h₁ h₀, hzero]

end Axis

/-! ## The events -/

/-- Whatever the event, its coordinates are scaled so. -/
theorem dx_dy_of_mem {metrics : SystemMetrics} {inputType : String} {x y button deltaY : ℤ}
    {mi : MouseInput} (hmi : .mouse mi ∈ injectMouseInput metrics inputType x y button deltaY) :
    mi.dx = normalized x metrics.cxScreen ∧ mi.dy = normalized y metrics.cyScreen := by
  unfold injectMouseInput at hmi
  split_ifs at hmi
  all_goals simp only [List.mem_cons, List.not_mem_nil, or_false, Input.mouse.injEq] at hmi
  -- a click and a context menu are two events, the others one
  all_goals first
    | obtain rfl := hmi; exact ⟨rfl, rfl⟩
    | obtain rfl | rfl := hmi <;> exact ⟨rfl, rfl⟩

/-- **Which pixels are hit.** On a desktop of one monitor the events of the agent are right on an
axis at its first pixel, and nowhere else. -/
theorem hitsPixel_iff_first {w h : ℤ} (hsize : 0 < w ∧ 0 < h) {x y : ℤ} (hx : 0 ≤ x) (hy : 0 ≤ y)
    {inputType : String} {button deltaY : ℤ} {mi : MouseInput}
    (hmi : .mouse mi ∈ injectMouseInput (Desktop.single w h hsize).metrics inputType x y button
      deltaY) :
    (HitsPixel w x mi.dx ↔ x = 0) ∧ (HitsPixel h y mi.dy ↔ y = 0) := by
  obtain ⟨hdx, hdy⟩ := dx_dy_of_mem hmi
  rw [hdx, hdy]
  exact ⟨hitsPixel_normalized_iff hsize.1 hx, hitsPixel_normalized_iff hsize.2 hy⟩

/-- In the middle of the left edge of a screen the column is hit, and the row is not. -/
theorem hitsPixel_edge : HitsPixel 1920 0 0 ∧ ¬ HitsPixel 1080 540 32767 := by
  have hmem : .mouse ⟨0, 32767, 0, MOUSEEVENTF_ABSOLUTE ||| MOUSEEVENTF_VIRTUALDESK |||
      MOUSEEVENTF_MOVE⟩ ∈ injectMouseInput (Desktop.single 1920 1080 (by decide)).metrics
        "mousemove" 0 540 0 0 := by decide
  obtain ⟨hx, hy⟩ := hitsPixel_iff_first (by decide) le_rfl (by decide) hmem
  exact ⟨hx.mpr rfl, fun hhit => absurd (hy.mp hhit) (by decide)⟩

/-- The pixel beside the corner is not hit: its coordinate selects the corner. -/
theorem not_hitsPixel_second :
    injectMouseInput (Desktop.single 1920 1080 (by decide)).metrics "mousemove" 1 0 0 0 =
        [.mouse ⟨34, 0, 0, MOUSEEVENTF_ABSOLUTE ||| MOUSEEVENTF_VIRTUALDESK |||
          MOUSEEVENTF_MOVE⟩] ∧
      selectedPixel 1920 34 = 0 ∧ ¬ HitsPixel 1920 1 34 :=
  ⟨by decide, by decide, fun hhit => absurd hhit.pixel (by decide)⟩

end BrowCast
