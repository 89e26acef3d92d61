import BrowCast.Agent.InputInjector
import Mathlib.Algebra.Order.Ring.Abs
import Mathlib.Tactic.FieldSimp
import Mathlib.Tactic.LinearCombination
import Mathlib.Tactic.Linarith

/-! # Where a mousemove puts the pointer

A viewer sends a pixel of the frame; `InjectMouseInput` scales it by the size of the primary monitor
and has it spread over the whole virtual desktop, wherever the frame was taken from. On each axis
the pointer misses by the offset of the two origins, by a drift that grows with the coordinate, and
by what the integer division cuts off. -/

namespace BrowCast

/-! ## One axis -/

/-- Where a normalised coordinate lands on an axis whose virtual desktop starts at `v₀` and is `v`
wide, beside a primary monitor of width `p`. -/
def landing (v₀ v p x : ℤ) : ℚ := v₀ + normalized x p * v / 65535

/-- On one axis, every pixel of a frame of width `w` can be multiplied in an `int`, and is hit
within a pixel: with `d` from the frame's origin to the desktop's, the offset `p * d` and the drift
`x * (v - p)`, less the part cut off by the division, stay within `p`. All of it is in units of one
`p`-th of a pixel. -/
def AxisFits (p v d w : ℤ) : Prop :=
  w ≤ 32769 ∧ ∀ x, 0 ≤ x → x < w →
    |65535 * (p * d + x * (v - p)) - 65535 * x % p * v| ≤ 65535 * p

section Axis

variable {v₀ v p o w x : ℤ}

/-- In the range of an `int` the coordinate is the floor of the exact quotient. -/
theorem normalized_of_le (h₀ : 0 ≤ x) (h₁ : x ≤ 32768) : normalized x p = 65535 * x / p := by
  have hfit : CInt.FitsInt (x * 65535) := by
    unfold CInt.FitsInt
    omega
  rw [normalized, CInt.mul_of_fits hfit, CInt.div_of_nonneg (by omega), mul_comm]

/-- The first pixel that is too far out wraps around to the left of the desktop. -/
theorem normalized_overflow (hp : 0 < p) : normalized 32769 p ≤ 0 := by
  have hwrap : CInt.mul 32769 65535 = -2147450881 := by decide
  rw [normalized, hwrap]
  exact CInt.div_nonpos_of_nonpos (by decide) (le_of_lt hp)

/-- **What a pixel is missed by**, in units of one `p`-th of a pixel. -/
theorem miss_eq (h₀ : 0 ≤ x) (h₁ : x ≤ 32768) :
    65535 * p * (landing v₀ v p x - (o + x)) =
      (65535 * (p * (v₀ - o) + x * (v - p)) - 65535 * x % p * v : ℤ) := by
  have hdivision : p * (65535 * x / p) + 65535 * x % p = 65535 * x := Int.mul_ediv_add_emod ..
  have hcast : (p : ℚ) * (65535 * x / p : ℤ) + (65535 * x % p : ℤ) = 65535 * x := by
    exact_mod_cast hdivision
  rw [landing, normalized_of_le h₀ h₁]
  push_cast at hcast ⊢
  generalize ((65535 * x / p : ℤ) : ℚ) = q at hcast ⊢
  generalize ((65535 * x % p : ℤ) : ℚ) = s at hcast ⊢
  field_simp
  linear_combination (v : ℚ) * hcast

/-- The pixels of an axis are all hit exactly when the axis fits. -/
theorem forall_landing_iff (hp : 0 < p) (hv : 0 ≤ v) (hw : 0 < w) :
    (∀ x : ℤ, 0 ≤ x → x < w → |landing v₀ v p x - (o + x)| ≤ 1) ↔ AxisFits p v (v₀ - o) w := by
  have hscale : (0 : ℚ) < 65535 * p := by
    have hp' : (0 : ℚ) < p := by exact_mod_cast hp
    linarith
  -- where the product fits, both sides are the same inequality in two units
  have hunit : ∀ x : ℤ, 0 ≤ x → x ≤ 32768 → (|landing v₀ v p x - (o + x)| ≤ 1 ↔
      |65535 * (p * (v₀ - o) + x * (v - p)) - 65535 * x % p * v| ≤ 65535 * p) := by
    intro x h₀ h₁
    have habs : 65535 * p * |landing v₀ v p x - (o + x)| =
        (|65535 * (p * (v₀ - o) + x * (v - p)) - 65535 * x % p * v| : ℤ) := by
      rw [Int.cast_abs, ← miss_eq h₀ h₁, abs_mul, abs_of_pos hscale]
    rw [← mul_le_mul_iff_right₀ hscale, habs, mul_one]
    exact_mod_cast Iff.rfl
  constructor
  · intro hall
    have hwidth : w ≤ 32769 := by
      by_contra hwide
      have hfirst := hall 0 le_rfl hw
      have hfar := hall 32769 (by omega) (by omega)
      have hzero : landing v₀ v p 0 = v₀ := by
        rw [landing, normalized_of_le le_rfl (by decide)]
        simp
      have hleft : landing v₀ v p 32769 ≤ v₀ := by
        have hneg : (normalized 32769 p : ℚ) ≤ 0 := by exact_mod_cast normalized_overflow hp
        have hv' : (0 : ℚ) ≤ v := by exact_mod_cast hv
        have hprod := mul_nonpos_of_nonpos_of_nonneg hneg hv'
        rw [landing]
        linarith
      rw [hzero] at hfirst
      rw [abs_le] at hfirst hfar
      push_cast at hfirst hfar
      linarith
    exact ⟨hwidth, fun x h₀ h₁ => (hunit x h₀ (by omega)).mp (hall x h₀ h₁)⟩
  · rintro ⟨hwidth, hfits⟩ x h₀ h₁
    exact (hunit x h₀ (by omega)).mpr (hfits x h₀ h₁)

/-- What the division cuts off is less than the monitor is wide. -/
theorem cut_bounds (hp : 0 < p) (x : ℤ) : 0 ≤ 65535 * x % p ∧ 65535 * x % p ≤ p - 1 :=
  ⟨Int.emod_nonneg _ (by omega), Int.le_sub_one_of_lt (Int.emod_lt_of_pos _ hp)⟩

/-- A frame of the whole axis fits when the axis is at most a pixel wider than the monitor. -/
theorem axisFits_whole_iff (hp : 0 < p) (hv : p ≤ v) :
    AxisFits p v 0 v ↔ v ≤ p + 1 ∧ v ≤ 32769 := by
  have hcut := fun x => cut_bounds hp x
  unfold AxisFits
  constructor
  · rintro ⟨hwidth, hfits⟩
    refine ⟨?_, hwidth⟩
    -- two pixels too many drift by more than a pixel at the last one
    by_contra hwide
    have hlast := (abs_le.mp (hfits (v - 1) (by omega) (by omega))).2
    have hdrift : (v - 1) * 2 ≤ (v - 1) * (v - p) :=
      mul_le_mul_of_nonneg_left (by omega) (by omega)
    have hcuts : 65535 * (v - 1) % p * v ≤ (p - 1) * 32769 :=
      mul_le_mul (hcut _).2 hwidth (by omega) (by omega)
    omega
  · rintro ⟨hone, hwidth⟩
    refine ⟨hwidth, fun x h₀ h₁ => ?_⟩
    have hdrift₀ : 0 ≤ x * (v - p) := mul_nonneg h₀ (by omega)
    have hdrift₁ : x * (v - p) ≤ p * 1 := mul_le_mul (by omega) (by omega) (by omega) (by omega)
    have hcuts₀ : 0 ≤ 65535 * x % p * v := mul_nonneg (hcut x).1 (by omega)
    have hcuts₁ : 65535 * x % p * v ≤ (p - 1) * 32769 :=
      mul_le_mul (hcut x).2 hwidth (by omega) (by omega)
    rw [abs_le]
    constructor <;> omega

/-- **Bounds for hitting all pixels**: the frame starts at the desktop's origin or before it, and at
the last column the offset and the drift together are at most a pixel. -/
theorem axisFits_of_le {d : ℤ} (hp : 0 < p) (hv : p ≤ v) (hmax : v ≤ 65535) (hwidth : w ≤ 32769)
    (hd : 0 ≤ d) (hlast : p * d + (w - 1) * (v - p) ≤ p) : AxisFits p v d w := by
  refine ⟨hwidth, fun x h₀ h₁ => ?_⟩
  obtain ⟨hcut₀, hcut₁⟩ := cut_bounds hp x
  have hoffset : 0 ≤ p * d := mul_nonneg hp.le hd
  have hdrift₀ : 0 ≤ x * (v - p) := mul_nonneg h₀ (by omega)
  have hdrift₁ : x * (v - p) ≤ (w - 1) * (v - p) :=
    mul_le_mul_of_nonneg_right (by omega) (by omega)
  have hcuts₀ : 0 ≤ 65535 * x % p * v := mul_nonneg hcut₀ (by omega)
  have hcuts₁ : 65535 * x % p * v ≤ (p - 1) * 65535 :=
    mul_le_mul hcut₁ hmax (by omega) (by omega)
  rw [abs_le]
  constructor <;> omega

/-- When all pixels are hit, the frame starts within a pixel of the desktop's origin, and at the
last column the offset and the drift together are less than two pixels. -/
theorem AxisFits.bounds {d : ℤ} (hfits : AxisFits p v d w) (hp : 0 < p) (hv : p ≤ v)
    (hmax : v ≤ 65535) (hw : 0 < w) :
    |d| ≤ 1 ∧ p * d + (w - 1) * (v - p) < 2 * p := by
  obtain ⟨hwidth, hall⟩ := hfits
  constructor
  · have hfirst := hall 0 le_rfl hw
    rw [mul_zero, Int.zero_emod, zero_mul, zero_mul, sub_zero, add_zero, abs_mul, abs_mul,
      abs_of_pos hp, abs_of_pos (by decide : (0 : ℤ) < 65535)] at hfirst
    have hunit : p * |d| ≤ p * 1 := by omega
    exact le_of_mul_le_mul_left hunit hp
  · obtain ⟨hcut₀, hcut₁⟩ := cut_bounds hp (w - 1)
    have hlast := (abs_le.mp (hall (w - 1) (by omega) (by omega))).2
    have hcuts₁ : 65535 * (w - 1) % p * v ≤ (p - 1) * 65535 :=
      mul_le_mul hcut₁ hmax (by omega) (by omega)
    omega

/-- **Where the desktop is no longer than the monitor**, nothing drifts: the frame starts at the
origin or a pixel before it, or a pixel after it where the division cuts nothing off. -/
theorem axisFits_equal_iff {d : ℤ} (hp : 0 < p) (hmax : p ≤ 65535) (hw : 0 < w) :
    AxisFits p p d w ↔ w ≤ 32769 ∧ (d = 0 ∨ d = 1 ∨ d = -1 ∧ (w = 1 ∨ p ∣ 65535)) := by
  constructor
  · intro hfits
    obtain ⟨hlower, hupper⟩ := abs_le.mp (hfits.bounds hp le_rfl hmax hw).1
    refine ⟨hfits.1, ?_⟩
    rcases (by omega : d = 0 ∨ d = 1 ∨ d = -1) with hzero | hone | hback
    · exact Or.inl hzero
    · exact Or.inr (Or.inl hone)
    · refine Or.inr (Or.inr ⟨hback, or_iff_not_imp_left.mpr fun hsecond => ?_⟩)
      -- the second pixel is missed by what is cut off of it
      have hnext := (abs_le.mp (hfits.2 1 (by decide) (by omega))).1
      obtain ⟨hcut₀, -⟩ := cut_bounds hp 1
      rw [hback, sub_self, mul_zero] at hnext
      have hnone : 65535 * 1 % p * p ≤ 0 * p := by omega
      exact Int.dvd_of_emod_eq_zero (le_antisymm (le_of_mul_le_mul_right hnone hp) hcut₀)
  · rintro ⟨hwidth, hzero | hone | ⟨hback, hexact⟩⟩
    · exact axisFits_of_le hp le_rfl hmax hwidth hzero.ge (by subst hzero; omega)
    · exact axisFits_of_le hp le_rfl hmax hwidth (by omega) (by subst hone; omega)
    · refine ⟨hwidth, fun x h₀ h₁ => ?_⟩
      have hcut : 65535 * x % p = 0 := by
        rcases hexact with hsingle | hdvd
        · rw [show x = 0 by omega, mul_zero, Int.zero_emod]
        · exact Int.emod_eq_zero_of_dvd (Dvd.dvd.mul_right hdvd x)
      rw [hcut, hback, sub_self, mul_zero, zero_mul, abs_le]
      constructor <;> omega

end Axis

/-! ## Both axes -/

/-- What is shared: the full screen, or a window, with the desktop point its captured frame shows in
the top-left pixel. -/
inductive Source where
  | fullScreen
  | window (hwnd : Window) (wx wy : ℤ)

/-- The area of the desktop a captured frame shows. -/
def Source.frame (desktop : Desktop) : Source → Option Area
  | fullScreen => sourceArea desktop.metrics none
  | window hwnd wx wy =>
      (sourceArea desktop.metrics (some hwnd)).map fun area =>
        { area with x_src := wx, y_src := wy }

/-- A mousemove that carries a pixel of the frame puts the pointer within a pixel of the point shown
there. -/
def Targets (desktop : Desktop) (frame : Area) : Prop :=
  ∀ x y : ℤ, 0 ≤ x → x < frame.width → 0 ≤ y → y < frame.height →
    ∀ (button deltaY : ℤ) (pointer : Point),
      let hit := desktop.pointerAfter pointer
        (injectMouseInput desktop.metrics "mousemove" x y button deltaY)
      |hit.1 - (frame.x_src + x)| ≤ 1 ∧ |hit.2 - (frame.y_src + y)| ≤ 1

/-- When the pixels are hit: a full screen is at most a pixel wider and higher than the primary
monitor; for a window, both axes fit. -/
def Source.Fits (desktop : Desktop) (frame : Area) : Source → Prop
  | fullScreen =>
      (desktop.vw ≤ desktop.pw + 1 ∧ desktop.vw ≤ 32769) ∧
        (desktop.vh ≤ desktop.ph + 1 ∧ desktop.vh ≤ 32769)
  | window _ _ _ =>
      AxisFits desktop.pw desktop.vw (desktop.vx - frame.x_src) frame.width ∧
        AxisFits desktop.ph desktop.vh (desktop.vy - frame.y_src) frame.height

section Targeting

variable {desktop : Desktop} {source : Source} {frame : Area}

/-- Where a mousemove puts the pointer, axis by axis. -/
theorem pointerAfter_mousemove_eq_landing (desktop : Desktop) (pointer : Point)
    (x y button deltaY : ℤ) :
    desktop.pointerAfter pointer (injectMouseInput desktop.metrics "mousemove" x y button deltaY) =
      (landing desktop.vx desktop.vw desktop.pw x, landing desktop.vy desktop.vh desktop.ph y) :=
  desktop.pointerAfter_mousemove pointer x y button deltaY

/-- The two axes are independent. -/
theorem targets_iff_axes (hwidth : 0 < frame.width) (hheight : 0 < frame.height) :
    Targets desktop frame ↔
      AxisFits desktop.pw desktop.vw (desktop.vx - frame.x_src) frame.width ∧
        AxisFits desktop.ph desktop.vh (desktop.vy - frame.y_src) frame.height := by
  have hvw : 0 ≤ desktop.vw := by have := desktop.horizontal; have := desktop.primary; omega
  have hvh : 0 ≤ desktop.vh := by have := desktop.vertical; have := desktop.primary; omega
  rw [← forall_landing_iff desktop.primary.1 hvw hwidth,
    ← forall_landing_iff desktop.primary.2 hvh hheight]
  simp only [Targets, pointerAfter_mousemove_eq_landing]
  constructor
  · intro hall
    exact ⟨fun x h₀ h₁ => (hall x 0 h₀ h₁ le_rfl hheight 0 0 0).1,
      fun y h₀ h₁ => (hall 0 y le_rfl hwidth h₀ h₁ 0 0 0).2⟩
  · rintro ⟨hx, hy⟩ x y hx₀ hx₁ hy₀ hy₁ - - -
    exact ⟨hx x hx₀ hx₁, hy y hy₀ hy₁⟩

/-- On one axis, a frame of width `w` that starts at `start` lies where a monitor of width `p`
does, to the pixel: a frame that starts a pixel late is hit where the division cuts nothing off. -/
def Aligned (p start w : ℤ) : Prop :=
  w ≤ 32769 ∧ (start = 0 ∨ start = -1 ∨ start = 1 ∧ (w = 1 ∨ p ∣ 65535))

/-- **On a single monitor** the pixels of a window are hit when the window starts at its origin, to
the pixel. -/
theorem targets_iff_aligned (hwidth : 0 < frame.width) (hheight : 0 < frame.height)
    (hsingle : desktop.vw = desktop.pw ∧ desktop.vh = desktop.ph)
    (hmax : desktop.pw ≤ 65535 ∧ desktop.ph ≤ 65535) :
    Targets desktop frame ↔
      Aligned desktop.pw frame.x_src frame.width ∧ Aligned desktop.ph frame.y_src frame.height := by
  have horigin : desktop.vx = 0 ∧ desktop.vy = 0 := by
    have := desktop.horizontal
    have := desktop.vertical
    omega
  rw [targets_iff_axes hwidth hheight, hsingle.1, hsingle.2, horigin.1, horigin.2,
    axisFits_equal_iff desktop.primary.1 hmax.1 hwidth,
    axisFits_equal_iff desktop.primary.2 hmax.2 hheight, Aligned, Aligned]
  simp only [zero_sub, neg_eq_iff_eq_neg, neg_zero, neg_neg]

/-- A frame of the full screen covers the virtual desktop. -/
theorem frame_fullScreen (desktop : Desktop) :
    Source.fullScreen.frame desktop = some ⟨desktop.vw, desktop.vh, desktop.vx, desktop.vy⟩ := by
  have hvirtual : 0 < desktop.vw ∧ 0 < desktop.vh := by
    have := desktop.primary
    have := desktop.horizontal
    have := desktop.vertical
    omega
  simp [Source.frame, sourceArea, Desktop.metrics, hvirtual]

/-- **Pointer targeting.** All pixels of the frame of a source are hit exactly when the source
fits. -/
theorem targets_iff_fits (hframe : source.frame desktop = some frame) (hwidth : 0 < frame.width)
    (hheight : 0 < frame.height) : Targets desktop frame ↔ source.Fits desktop frame := by
  rw [targets_iff_axes hwidth hheight]
  cases source with
  | window hwnd wx wy => exact Iff.rfl
  | fullScreen =>
      have hwide : desktop.pw ≤ desktop.vw := by have := desktop.horizontal; omega
      have hhigh : desktop.ph ≤ desktop.vh := by have := desktop.vertical; omega
      rw [frame_fullScreen] at hframe
      obtain rfl := Option.some.inj hframe
      rw [sub_self, sub_self, axisFits_whole_iff desktop.primary.1 hwide,
        axisFits_whole_iff desktop.primary.2 hhigh]
      exact Iff.rfl

end Targeting

/-- The full screen of a single monitor is hit. -/
theorem targets_singleMonitor :
    Targets (Desktop.single 1920 1080 (by decide)) ⟨1920, 1080, 0, 0⟩ :=
  (targets_iff_fits (frame_fullScreen (Desktop.single 1920 1080 (by decide))) (by decide)
    (by decide)).mpr ⟨by decide, by decide⟩

/-- A window of 640 by 480 pixels whose top-left corner is at a point of the desktop. -/
def Window.placedAt (left top : ℤ) : Window where
  clientRect := some ⟨0, 0, 640, 480⟩
  windowRect := some ⟨left, top, left + 640, top + 480⟩
  mappedClient := some ⟨left, top, left + 640, top + 480⟩
  printWindow := false
  client _ _ _ := 0

/-- With a second monitor the pixel (1000, 0) of the full screen is missed by 999, and on a single
one the top-left pixel of a window at (500, 300) by the place of the window. -/
theorem targets_missed :
    Source.fullScreen.frame (Desktop.sideBySide 1920 1080 (by decide)) =
        some ⟨3840, 1080, 0, 0⟩ ∧
      ¬ Targets (Desktop.sideBySide 1920 1080 (by decide)) ⟨3840, 1080, 0, 0⟩ ∧
      (Source.window (Window.placedAt 500 300) 500 300).frame
          (Desktop.single 1920 1080 (by decide)) = some ⟨640, 480, 500, 300⟩ ∧
      ¬ Targets (Desktop.single 1920 1080 (by decide)) ⟨640, 480, 500, 300⟩ := by
  refine ⟨rfl, fun hall => ?_, rfl, fun hall => ?_⟩
  · have hmiss := (hall 1000 0 (by decide) (by decide) (by decide) (by decide) 0 0 0).1
    revert hmiss
    decide +kernel
  · have hmiss := (hall 0 0 (by decide) (by decide) (by decide) (by decide) 0 0 0).1
    revert hmiss
    decide +kernel

end BrowCast
