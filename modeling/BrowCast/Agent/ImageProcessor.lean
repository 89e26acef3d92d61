import BrowCast.Agent.CaptureManager
import Mathlib.Tactic.ByContra

/-! # Handing a frame to the JPEG encoder

`main` passes the captured pixels to `CompressToJpeg` of `Agent/src/ImageProcessor.cpp`, which calls
`tjCompress2` with the row pitch `width * 3`. The encoder itself is not modelled, only the bytes it
reads. -/

namespace BrowCast

namespace Frame

variable (frame : Frame)

/-- The byte `CapturePixelsInternal` stored for a channel of a pixel, at its own row pitch. -/
def capturedByte (x y c : ℕ) : Option UInt8 :=
  frame.pixels[y * (rowPitch frame.width).toNat + x * 3 + c]?

/-- The byte `tjCompress2` reads for a channel of a pixel (`TJPF_BGR`, row pitch `width * 3`);
`none` when it lies outside the buffer. -/
def encoderByte (x y c : ℕ) : Option UInt8 :=
  frame.pixels[y * (CInt.mul frame.width 3).toNat + x * 3 + c]?

/-- For every channel of every pixel the encoder reads, inside the buffer, the byte that was
stored. -/
def PixelsSurvive : Prop :=
  ∀ x y c : ℕ, (x : ℤ) < frame.width → (y : ℤ) < frame.height → c < 3 →
    ∃ b, frame.capturedByte x y c = some b ∧ frame.encoderByte x y c = some b

end Frame

variable {w h : ℕ}

/-- A frame of `w` by `h` pixels whose rows are those of `GetDIBits`. -/
theorem Frame.capturedByte_eq {frame : Frame} (hwidth : frame.width = w)
    (hfit : CInt.FitsInt (w * 3 + 3)) (x y c : ℕ) :
    frame.capturedByte x y c = frame.pixels[y * dibStride w + x * 3 + c]? := by
  rw [Frame.capturedByte, hwidth, rowPitch_eq w hfit, Int.toNat_natCast]

/-- The encoder reads the bytes of a frame row by row, without padding between the rows. -/
theorem Frame.encoderByte_eq {frame : Frame} (hwidth : frame.width = w)
    (hfit : CInt.FitsInt (w * 3 + 3)) (x y c : ℕ) :
    frame.encoderByte x y c = frame.pixels[y * (3 * w) + x * 3 + c]? := by
  have hmul : CInt.FitsInt ((w : ℤ) * 3) := by
    unfold CInt.FitsInt at hfit ⊢
    omega
  have hpitch : (CInt.mul w 3).toNat = 3 * w := by
    rw [CInt.mul_of_fits hmul]
    omega
  rw [Frame.encoderByte, hwidth, hpitch]

/-- The bytes of the pixels of row `y` lie in the first `y + 1` rows. -/
theorem pixel_index_lt {x y c : ℕ} (hx : x < w) (hy : y < h) (hc : c < 3) :
    y * dibStride w + x * 3 + c < dibStride w * h := by
  have hstride := le_dibStride w
  have hrows : dibStride w * (y + 1) ≤ dibStride w * h := Nat.mul_le_mul_left _ hy
  rw [Nat.mul_comm y]
  rw [Nat.mul_add, Nat.mul_one] at hrows
  omega

/-- With the same pitch on both sides, or a single row, the encoder reads what was stored. -/
theorem pixelsSurvive_of_agree (hfit : CInt.FitsInt (w * 3 + 3)) (hagree : w % 4 = 0 ∨ h = 1)
    (bitmap : Picture) (padding : ℕ → UInt8) :
    Frame.PixelsSurvive
      { width := w, height := h, pixels := getDIBits bitmap padding w (dibStride w * h) } := by
  intro x y c hx hy hc
  have hx : x < w := Int.ofNat_lt.mp hx
  have hy : y < h := Int.ofNat_lt.mp hy
  have hsame : y * (3 * w) = y * dibStride w := by
    rcases hagree with hwidth | hheight
    · rw [(dibStride_eq_iff w).mpr hwidth]
    · have hrow : y = 0 := by omega
      rw [hrow, Nat.zero_mul, Nat.zero_mul]
  refine ⟨bitmap x y c, ?_, ?_⟩
  · rw [Frame.capturedByte_eq rfl hfit]
    exact getElem?_getDIBits bitmap padding hx hc (pixel_index_lt hx hy hc)
  · rw [Frame.encoderByte_eq rfl hfit, hsame]
    exact getElem?_getDIBits bitmap padding hx hc (pixel_index_lt hx hy hc)

/-- Otherwise the encoder takes the padding of the first row for the start of the second one. -/
theorem not_pixelsSurvive_of_padded (hfit : CInt.FitsInt (w * 3 + 3)) (hw : 0 < w)
    (hpadded : w % 4 ≠ 0) (hrows : 1 < h) (bitmap : Picture) (padding : ℕ → UInt8)
    (hbyte : bitmap 0 1 0 ≠ padding (3 * w)) :
    ¬ Frame.PixelsSurvive
      { width := w, height := h, pixels := getDIBits bitmap padding w (dibStride w * h) } := by
  intro hsurvive
  have hlt : 3 * w < dibStride w := by
    have hle := le_dibStride w
    have hne := mt (dibStride_eq_iff w).mp hpadded
    omega
  have hsize := pixel_index_lt (w := w) hw hrows (Nat.zero_lt_succ 2)
  obtain ⟨b, hcaptured, hencoder⟩ :=
    hsurvive 0 1 0 (Int.ofNat_lt.mpr hw) (Int.ofNat_lt.mpr hrows) (by decide)
  rw [Frame.capturedByte_eq rfl hfit, getElem?_getDIBits bitmap padding hw (by decide) hsize]
    at hcaptured
  rw [Frame.encoderByte_eq rfl hfit] at hencoder
  have hindex : 1 * (3 * w) + 0 * 3 + 0 = 3 * w := by omega
  have hpad : 3 * w ≤ 3 * w % dibStride w := Nat.le_of_eq (Nat.mod_eq_of_lt hlt).symm
  rw [hindex, getElem?_getDIBits_of_padding bitmap padding hpad (by omega)] at hencoder
  exact hbyte (Option.some.inj (hcaptured.trans hencoder.symm))

/-- A desktop of `w` by `h` pixels in one colour, of which every call succeeds. -/
def Win32.plain (w h : ℤ) : Win32 where
  metrics := ⟨w, h, 0, 0, w, h⟩
  getDC := true
  createCompatibleDC := true
  createCompatibleBitmap := true
  getDIBits := true
  screen _ _ _ := 255
  fresh _ _ _ := 0
  padding _ := 0

/-- What is captured of a plain screen is a frame of its size. -/
theorem capturePixelsInternal_plain (hfit : CInt.FitsInt (w * 3 + 3)) :
    capturePixelsInternal (Win32.plain w h) none =
      { width := w, height := h
        pixels := getDIBits (fun _ _ _ => 255) (fun _ => 0) w (dibStride w * h) } := by
  have harea : sourceArea (Win32.plain w h).metrics none = some ⟨w, h, 0, 0⟩ := by
    simp [sourceArea, Win32.plain]
  rw [capturePixelsInternal, harea]
  show Frame.mk _ _ (getDIBits _ _ _ ((rowPitch w).toNat * _)) = _
  rw [rowPitch_eq w hfit]
  rfl

/-- **The hand-over keeps the pixels** of all frames of `w` by `h` pixels exactly when the rows have
no padding or there is only one. -/
theorem pixelsSurvive_iff (hw : 0 < w) (hh : 0 < h) (hfit : CInt.FitsInt (w * 3 + 3)) :
    (∀ win32 hwnd, (capturePixelsInternal win32 hwnd).width = w →
      (capturePixelsInternal win32 hwnd).height = h →
      (capturePixelsInternal win32 hwnd).pixels ≠ [] →
      (capturePixelsInternal win32 hwnd).PixelsSurvive) ↔ w % 4 = 0 ∨ h = 1 := by
  constructor
  · intro hall
    by_contra hnot
    have hpadded : w % 4 ≠ 0 := fun h => hnot (Or.inl h)
    have hrows : 1 < h := by omega
    have hplain := hall (Win32.plain w h) none
    rw [capturePixelsInternal_plain hfit] at hplain
    refine not_pixelsSurvive_of_padded hfit hw hpadded hrows _ _ (by decide) (hplain rfl rfl ?_)
    -- the buffer holds at least the first pixel
    intro hnil
    have hlength := congrArg List.length hnil
    rw [length_getDIBits] at hlength
    have hsize := pixel_index_lt hw hh (Nat.zero_lt_succ 2)
    rw [List.length_nil] at hlength
    omega
  · intro hagree win32 hwnd hwidth hheight hpixels
    rcases capturePixelsInternal_cases win32 hwnd with hnil | ⟨area, -, hframe⟩
    · exact absurd hnil hpixels
    · rw [hframe] at hwidth hheight ⊢
      simp only at hwidth hheight
      rw [hwidth, hheight, rowPitch_eq w hfit]
      exact pixelsSurvive_of_agree hfit hagree _ _

/-- Four columns fill twelve bytes. -/
theorem pixelsSurvive_fourColumns :
    (capturePixelsInternal (Win32.plain 4 2) none).PixelsSurvive :=
  (pixelsSurvive_iff (w := 4) (h := 2) (by decide) (by decide) (by decide)).mpr (by decide)
    (Win32.plain 4 2) none (by decide) (by decide) (by decide)

/-- One column of two pixels: the row takes three bytes and one of padding, which the encoder reads
as the blue of the second pixel. -/
theorem pixelsSurvive_oneColumn :
    let frame := capturePixelsInternal (Win32.plain 1 2) none
    frame.width = 1 ∧ frame.height = 2 ∧ frame.pixels ≠ [] ∧
      frame.capturedByte 0 1 0 = some 255 ∧ frame.encoderByte 0 1 0 = some 0 ∧
      ¬ frame.PixelsSurvive := by
  refine ⟨by decide, by decide, by decide, by decide, by decide, fun h => ?_⟩
  obtain ⟨b, hcaptured, hencoder⟩ := h 0 1 0 (by decide) (by decide) (by decide)
  have hsame := hcaptured.trans hencoder.symm
  revert hsame
  decide

end BrowCast
