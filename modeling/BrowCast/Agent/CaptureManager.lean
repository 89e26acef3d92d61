import BrowCast.CPlusPlus.Int32

/-! # Capturing a frame

`CapturePixelsInternal` of `Agent/src/CaptureManager.cpp`: which area is captured, what is drawn
into the bitmap, and the bytes `GetDIBits` makes of it. What the Win32 calls answer is data
(`Win32`); the handles they hand out have a module of their own. -/

namespace BrowCast

/-- What `GetSystemMetrics` answers. -/
structure SystemMetrics where
  /-- `SM_CXSCREEN`. -/
  cxScreen : ℤ
  /-- `SM_CYSCREEN`. -/
  cyScreen : ℤ
  /-- `SM_XVIRTUALSCREEN`. -/
  xVirtualScreen : ℤ
  /-- `SM_YVIRTUALSCREEN`. -/
  yVirtualScreen : ℤ
  /-- `SM_CXVIRTUALSCREEN`. -/
  cxVirtualScreen : ℤ
  /-- `SM_CYVIRTUALSCREEN`. -/
  cyVirtualScreen : ℤ

/-- A `RECT`. -/
structure Rect where
  left : ℤ
  top : ℤ
  right : ℤ
  bottom : ℤ

/-- The contents of a surface: the byte of a channel (blue, green, red) at a point. -/
abbrev Picture := ℤ → ℤ → ℕ → UInt8

/-- A window, as the Win32 calls show it. A call that fails answers `none` or `false`. -/
structure Window where
  /-- `GetClientRect`. -/
  clientRect : Option Rect
  /-- `GetWindowRect`. -/
  windowRect : Option Rect
  /-- `MapWindowPoints` of the corners of the client rectangle to the screen. -/
  mappedClient : Option Rect
  /-- `PrintWindow(hwnd, …, PW_CLIENTONLY)` succeeds. -/
  printWindow : Bool
  /-- What the window shows in its client area, from the client area's top-left corner. -/
  client : Picture

/-- What the Win32 calls of one capture answer. -/
structure Win32 where
  metrics : SystemMetrics
  /-- `GetDC(NULL)`, `CreateCompatibleDC`, `CreateCompatibleBitmap` and `GetDIBits` succeed. -/
  getDC : Bool
  createCompatibleDC : Bool
  createCompatibleBitmap : Bool
  getDIBits : Bool
  /-- What the desktop shows. -/
  screen : Picture
  /-- What a fresh bitmap holds before anything is drawn into it. -/
  fresh : Picture
  /-- The bytes of the buffer that belong to no pixel. -/
  padding : ℕ → UInt8

/-- The area that is captured: its size, and its top-left corner on the desktop. -/
structure Area where
  width : ℤ
  height : ℤ
  x_src : ℤ
  y_src : ℤ

/-- The choice of the area; `none` when `GetClientRect` fails. `hwnd` is `none` for the whole
screen. -/
def sourceArea (metrics : SystemMetrics) : Option Window → Option Area
  | none =>
      let virtual := 0 < metrics.cxVirtualScreen ∧ 0 < metrics.cyVirtualScreen
      some {
        width := if virtual then metrics.cxVirtualScreen else metrics.cxScreen
        height := if virtual then metrics.cyVirtualScreen else metrics.cyScreen
        -- the origin stays that of the virtual screen when the sizes fall back to the primary one
        x_src := metrics.xVirtualScreen
        y_src := metrics.yVirtualScreen }
  | some hwnd =>
      match hwnd.clientRect with
      | none => none
      | some client_rect =>
          match hwnd.windowRect, hwnd.mappedClient with
          | some window_rect, _ => some (ofRect window_rect)
          | none, some points => some (ofRect points)
          | none, none => some { ofRect client_rect with x_src := 0, y_src := 0 }
where
  /-- The area a rectangle in screen coordinates covers. -/
  ofRect (r : Rect) : Area := ⟨r.right - r.left, r.bottom - r.top, r.left, r.top⟩

/-- What is in the bitmap after `StretchBlt`, or after `PrintWindow` or `BitBlt`. -/
def drawn (win32 : Win32) (hwnd : Option Window) (area : Area) : Picture :=
  match hwnd with
  | none => fromScreen
  | some hwnd =>
      if hwnd.printWindow then
        match hwnd.clientRect with
        | some r => fun x y c =>
            if x < r.right - r.left ∧ y < r.bottom - r.top then hwnd.client x y c
            else win32.fresh x y c
        | none => win32.fresh
      else fromScreen
where
  /-- A copy of the screen from the source point on. -/
  fromScreen : Picture := fun x y => win32.screen (area.x_src + x) (area.y_src + y)

/-- `rowPitch`, for three bytes a pixel. -/
def rowPitch (width : ℤ) : ℤ := CInt.mul (CInt.div (CInt.add (CInt.mul width 3) 3) 4) 4

/-- The distance between the rows `GetDIBits` writes: 24 bits a pixel, padded to four bytes. -/
def dibStride (width : ℕ) : ℕ := (width * 3 + 3) / 4 * 4

/-- The buffer after `GetDIBits` with a negative `biHeight`: `size` bytes, the rows from the top. -/
def getDIBits (bitmap : Picture) (padding : ℕ → UInt8) (width size : ℕ) : List UInt8 :=
  (List.range size).map fun i =>
    if i % dibStride width < 3 * width then
      bitmap (i % dibStride width / 3 : ℕ) (i / dibStride width : ℕ) (i % dibStride width % 3)
    else padding i

/-- A captured frame: `width`, `height` and `pixels`, which are empty when the capture failed. -/
structure Frame where
  width : ℤ := 0
  height : ℤ := 0
  pixels : List UInt8 := []

/-- `CapturePixelsInternal`, called with `width` and `height` zero. -/
def capturePixelsInternal (win32 : Win32) (hwnd : Option Window) : Frame :=
  if !win32.getDC then {}
  else match sourceArea win32.metrics hwnd with
    | none => {}
    | some area =>
        let frame : Frame := { width := area.width, height := area.height }
        if !win32.createCompatibleDC || !win32.createCompatibleBitmap then frame
        else if !win32.getDIBits then frame
        else { frame with
          pixels := getDIBits (drawn win32 hwnd area) win32.padding area.width.toNat
            ((rowPitch area.width).toNat * area.height.toNat) }

/-- A capture yields no pixels, or it yields what was drawn for the area. -/
theorem capturePixelsInternal_cases (win32 : Win32) (hwnd : Option Window) :
    (capturePixelsInternal win32 hwnd).pixels = [] ∨
      ∃ area, sourceArea win32.metrics hwnd = some area ∧
        capturePixelsInternal win32 hwnd =
          { width := area.width, height := area.height
            pixels := getDIBits (drawn win32 hwnd area) win32.padding area.width.toNat
              ((rowPitch area.width).toNat * area.height.toNat) } := by
  unfold capturePixelsInternal
  split
  · exact Or.inl rfl
  · cases sourceArea win32.metrics hwnd with
    | none => exact Or.inl rfl
    | some area =>
        simp only
        split
        · exact Or.inl rfl
        · split
          · exact Or.inl rfl
          · exact Or.inr ⟨area, rfl, rfl⟩

/-! ## The bytes of the buffer -/

/-- `GetDIBits` fills the buffer it is given. -/
@[simp] theorem length_getDIBits (bitmap : Picture) (padding : ℕ → UInt8) (width size : ℕ) :
    (getDIBits bitmap padding width size).length = size := by simp [getDIBits]

/-- A row has room for its pixels. -/
theorem le_dibStride (width : ℕ) : 3 * width ≤ dibStride width := by
  unfold dibStride
  omega

/-- The rows have no padding exactly when the width is a multiple of four. -/
theorem dibStride_eq_iff (width : ℕ) : dibStride width = 3 * width ↔ width % 4 = 0 := by
  unfold dibStride
  omega

/-- Where nothing overflows, the row pitch of the code is the one of Windows. -/
theorem rowPitch_eq (width : ℕ) (hfit : CInt.FitsInt (width * 3 + 3)) :
    rowPitch width = dibStride width := by
  have hmul : CInt.FitsInt ((width : ℤ) * 3) := by
    unfold CInt.FitsInt at hfit ⊢
    omega
  have hpitch : CInt.FitsInt (((width : ℤ) * 3 + 3) / 4 * 4) := by
    unfold CInt.FitsInt at hfit ⊢
    omega
  rw [rowPitch, CInt.mul_of_fits hmul, CInt.add_of_fits hfit,
    CInt.div_of_nonneg (by omega), CInt.mul_of_fits hpitch, dibStride]
  push_cast
  rfl

/-- The byte of a pixel is at its row, its column and its channel. -/
theorem getElem?_getDIBits (bitmap : Picture) (padding : ℕ → UInt8) {width size x y c : ℕ}
    (hx : x < width) (hc : c < 3) (hsize : y * dibStride width + x * 3 + c < size) :
    (getDIBits bitmap padding width size)[y * dibStride width + x * 3 + c]? =
      some (bitmap x y c) := by
  have hstride := le_dibStride width
  have hindex : y * dibStride width + x * 3 + c = dibStride width * y + (x * 3 + c) := by
    rw [Nat.mul_comm, Nat.add_assoc]
  have hrow : (y * dibStride width + x * 3 + c) / dibStride width = y := by
    rw [hindex, Nat.mul_add_div (by omega), Nat.div_eq_of_lt (by omega), Nat.add_zero]
  have hcolumn : (y * dibStride width + x * 3 + c) % dibStride width = x * 3 + c := by
    rw [hindex, Nat.mul_add_mod, Nat.mod_eq_of_lt (by omega)]
  have hpixel : (x * 3 + c) / 3 = x := by omega
  have hchannel : (x * 3 + c) % 3 = c := by omega
  have hlt : x * 3 + c < 3 * width := by omega
  rw [getDIBits, List.getElem?_map, List.getElem?_range hsize, Option.map_some, hrow, hcolumn,
    if_pos hlt, hpixel, hchannel]

/-- A byte behind the last pixel of a row is padding. -/
theorem getElem?_getDIBits_of_padding (bitmap : Picture) (padding : ℕ → UInt8) {width size i : ℕ}
    (hpad : 3 * width ≤ i % dibStride width) (hsize : i < size) :
    (getDIBits bitmap padding width size)[i]? = some (padding i) := by
  have hnot : ¬ i % dibStride width < 3 * width := by omega
  rw [getDIBits, List.getElem?_map, List.getElem?_range hsize, Option.map_some, if_neg hnot]

end BrowCast
