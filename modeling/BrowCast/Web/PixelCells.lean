import BrowCast.Geometry.PixelGrid
import BrowCast.Web.Viewer
import Mathlib.Tactic.FieldSimp
import Mathlib.Tactic.Ring

/-! # Pixels under the pointer

A frame is shown as large as it fits into the canvas element, in its middle: each pixel of it is a
cell of two axes. `sendInput` scales the client point back and rounds, so that it finds the pixel
under the point in the first half of each cell. -/

namespace BrowCast.Web

/-! ## What is shown -/

/-- A frame of `width` by `height` pixels, shown in a canvas element. -/
structure Shown where
  rect : DomRect
  width : ℕ
  height : ℕ
  rectWidth_pos : 0 < rect.width
  rectHeight_pos : 0 < rect.height
  width_pos : 0 < width
  height_pos : 0 < height

namespace Shown

variable (s : Shown)

/-- The size of a pixel: the largest at which the frame fits. -/
def scale : ℚ := min (s.rect.width / s.width) (s.rect.height / s.height)

/-- The scale of an image is positive. -/
theorem scale_pos : 0 < s.scale := by
  have hwidth : (0 : ℚ) < s.width := by exact_mod_cast s.width_pos
  have hheight : (0 : ℚ) < s.height := by exact_mod_cast s.height_pos
  exact lt_min (div_pos s.rectWidth_pos hwidth) (div_pos s.rectHeight_pos hheight)

/-- The columns of pixels, in the middle of the element. -/
def columns : PixelGrid ℚ where
  start := s.rect.left + (s.rect.width - s.width * s.scale) / 2
  size := s.scale
  count := s.width
  size_pos := s.scale_pos
  count_pos := s.width_pos

/-- The rows of pixels, in the middle of the element. -/
def rows : PixelGrid ℚ where
  start := s.rect.top + (s.rect.height - s.height * s.scale) / 2
  size := s.scale
  count := s.height
  size_pos := s.scale_pos
  count_pos := s.height_pos

end Shown

/-! ## The letterbox -/

/-- What `sendInput` computes for an axis: how long the image is shown, and its offset. -/
structure Fitted (displayed offset : Number) (count : ℕ) (length scale : ℚ) : Prop where
  positive : displayed.IsPositive
  displayed : displayed.toRat = count * scale
  finite : offset.IsFinite
  offset : offset.toRat = (length - count * scale) / 2

section Letterbox

variable (s : Shown)

/-- `imageAspectRatio`. -/
theorem aspectRatio :
    ((Number.ofRat s.width).div (.ofRat s.height)).IsPositive ∧
      ((Number.ofRat s.width).div (.ofRat s.height)).toRat = (s.width : ℚ) / s.height := by
  have hwidth : (0 : ℚ) < s.width := by exact_mod_cast s.width_pos
  have hheight : (0 : ℚ) < s.height := by exact_mod_cast s.height_pos
  refine ⟨(Number.isPositive_ofRat hwidth).div (Number.isPositive_ofRat hheight), ?_⟩
  rw [Number.toRat_div (Number.isFinite_ofRat _) (Number.isPositive_ofRat hheight),
    Number.toRat_ofRat, Number.toRat_ofRat]

/-- The image is wider than the element exactly when its width decides how large it is shown. -/
theorem wider_iff : ((Number.ofRat s.width).div (.ofRat s.height)).greater
      ((Number.ofRat s.rect.width).div (.ofRat s.rect.height)) = true ↔
    s.rect.width / s.width < s.rect.height / s.height := by
  have hwidth : (0 : ℚ) < s.width := by exact_mod_cast s.width_pos
  have hheight : (0 : ℚ) < s.height := by exact_mod_cast s.height_pos
  have hrect := Number.isPositive_ofRat s.rectHeight_pos
  rw [Number.greater_iff (aspectRatio s).1.isFinite ((Number.isFinite_ofRat _).div hrect),
    (aspectRatio s).2, Number.toRat_div (Number.isFinite_ofRat _) hrect, Number.toRat_ofRat,
    Number.toRat_ofRat, div_lt_div_iff₀ s.rectHeight_pos hheight,
    div_lt_div_iff₀ hwidth hheight, mul_comm (s.width : ℚ)]

/-- An axis that the image fills. -/
theorem Fitted.filling {count : ℕ} {length scale : ℚ} (hlength : 0 < length)
    (hfills : count * scale = length) : Fitted (.ofRat length) (.ofRat 0) count length scale where
  positive := Number.isPositive_ofRat hlength
  displayed := by rw [Number.toRat_ofRat, hfills]
  finite := Number.isFinite_ofRat 0
  offset := by rw [Number.toRat_ofRat, hfills, sub_self, zero_div]

/-- An axis on which the image is in the middle. -/
theorem Fitted.centred {displayed : Number} {count : ℕ} {length scale : ℚ}
    (hpositive : displayed.IsPositive) (hdisplayed : displayed.toRat = count * scale) :
    Fitted displayed (((Number.ofRat length).sub displayed).div (.ofRat 2)) count length scale := by
  have htwo := Number.isPositive_ofRat (two_pos : (0 : ℚ) < 2)
  have hgap := (Number.isFinite_ofRat length).sub hpositive.isFinite
  refine ⟨hpositive, hdisplayed, hgap.div htwo, ?_⟩
  rw [Number.toRat_div hgap htwo,
    Number.toRat_sub (Number.isFinite_ofRat length) hpositive.isFinite, hdisplayed,
    Number.toRat_ofRat, Number.toRat_ofRat]

/-- The image as wide as the element: the branch of `sendInput` for images wider than it. -/
def fillingWidth (rect : DomRect) (imageAspectRatio : Number) : DisplayedImage :=
  let width := Number.ofRat rect.width
  let displayedImageHeight := width.div imageAspectRatio
  ⟨width, displayedImageHeight, .ofRat 0,
    ((Number.ofRat rect.height).sub displayedImageHeight).div (.ofRat 2)⟩

/-- The image as high as the element: the other branch. -/
def fillingHeight (rect : DomRect) (imageAspectRatio : Number) : DisplayedImage :=
  let height := Number.ofRat rect.height
  let displayedImageWidth := height.mul imageAspectRatio
  ⟨displayedImageWidth, height,
    ((Number.ofRat rect.width).sub displayedImageWidth).div (.ofRat 2), .ofRat 0⟩

/-- The two branches for the place of the image. -/
theorem displayedImage_eq_ite (rect : DomRect) (imageAspectRatio : Number) :
    displayedImage rect imageAspectRatio =
      if imageAspectRatio.greater ((Number.ofRat rect.width).div (.ofRat rect.height)) then
        fillingWidth rect imageAspectRatio
      else fillingHeight rect imageAspectRatio := rfl

/-- Both axes are as shown. -/
def Shown.FittedBy (shown : DisplayedImage) : Prop :=
  Fitted shown.displayedImageWidth shown.displayOffsetX s.width s.rect.width s.scale ∧
    Fitted shown.displayedImageHeight shown.displayOffsetY s.height s.rect.height s.scale

/-- The image fits by the width where the width is the tighter side. -/
theorem fitted_fillingWidth (hwide : s.rect.width / s.width ≤ s.rect.height / s.height) :
    s.FittedBy (fillingWidth s.rect ((Number.ofRat s.width).div (.ofRat s.height))) := by
  have hwidth : (s.width : ℚ) ≠ 0 := by exact_mod_cast s.width_pos.ne'
  have hrectWidth := Number.isPositive_ofRat s.rectWidth_pos
  obtain ⟨haspect, hratio⟩ := aspectRatio s
  have hscale : s.scale = s.rect.width / s.width := min_eq_left hwide
  have hshown := Number.toRat_div hrectWidth.isFinite haspect
  rw [Number.toRat_ofRat, hratio] at hshown
  refine ⟨.filling s.rectWidth_pos ?_, .centred (hrectWidth.div haspect) ?_⟩
  · rw [hscale, mul_div_cancel₀ _ hwidth]
  · apply hshown.trans
    rw [hscale]
    field_simp

/-- It fits by the height where the height is. -/
theorem fitted_fillingHeight (hhigh : s.rect.height / s.height ≤ s.rect.width / s.width) :
    s.FittedBy (fillingHeight s.rect ((Number.ofRat s.width).div (.ofRat s.height))) := by
  have hheight : (s.height : ℚ) ≠ 0 := by exact_mod_cast s.height_pos.ne'
  have hrectHeight := Number.isPositive_ofRat s.rectHeight_pos
  obtain ⟨haspect, hratio⟩ := aspectRatio s
  have hscale : s.scale = s.rect.height / s.height := min_eq_right hhigh
  have hshown := Number.toRat_mul hrectHeight.isFinite haspect.isFinite
  rw [Number.toRat_ofRat, hratio] at hshown
  refine ⟨.centred (hrectHeight.mul haspect) ?_, .filling s.rectHeight_pos ?_⟩
  · apply hshown.trans
    rw [hscale]
    field_simp
  · rw [hscale, mul_div_cancel₀ _ hheight]

/-- The page takes the branch that fits. -/
theorem fitted_displayedImage :
    s.FittedBy (displayedImage s.rect ((Number.ofRat s.width).div (.ofRat s.height))) := by
  rw [displayedImage_eq_ite]
  split
  · next hwider => exact fitted_fillingWidth s ((wider_iff s).mp hwider).le
  · next hwider =>
      exact fitted_fillingHeight s (not_lt.mp fun hlt => hwider ((wider_iff s).mpr hlt))

end Letterbox

/-! ## One axis -/

/-- The number that is sent for a client coordinate: that of the rounded position, clamped. -/
theorem toRat_scaledCoordinate (g : PixelGrid ℚ) (start : ℚ) {length : ℚ}
    {displayed offset : Number}
    (hfitted : Fitted displayed offset g.count length g.size)
    (hstart : g.start = start + (length - g.count * g.size) / 2) (client : ℚ) :
    (scaledCoordinate (.ofRat g.count) displayed offset (.ofRat start) (.ofRat client)).IsFinite ∧
      (scaledCoordinate (.ofRat g.count) displayed offset (.ofRat start) (.ofRat client)).toRat =
        g.clamp ⌊g.position client + 1 / 2⌋ := by
  have hcount : (0 : ℚ) < g.count := by exact_mod_cast g.count_pos
  have hsize := g.size_pos
  have hclient := Number.isFinite_ofRat client
  have hrelative := (hclient.sub (Number.isFinite_ofRat start)).sub hfitted.finite
  have hscale := (Number.isFinite_ofRat g.count).div hfitted.positive
  have hround := (hrelative.mul hscale).round
  have hlast := (Number.isFinite_ofRat g.count).sub (Number.isFinite_ofRat 1)
  have hmin := hround.min hlast
  refine ⟨(Number.isFinite_ofRat 0).max hmin, ?_⟩
  -- the product of the two is the position on the axis
  have hposition : (client - start - (length - g.count * g.size) / 2) *
      (g.count / (g.count * g.size)) = g.position client := by
    rw [PixelGrid.position, hstart]
    field_simp
    ring
  rw [scaledCoordinate, Number.toRat_max (Number.isFinite_ofRat 0) hmin,
    Number.toRat_min hround hlast, Number.toRat_round (hrelative.mul hscale),
    Number.toRat_mul hrelative hscale,
    Number.toRat_sub (hclient.sub (Number.isFinite_ofRat start)) hfitted.finite,
    Number.toRat_sub hclient (Number.isFinite_ofRat start),
    Number.toRat_div (Number.isFinite_ofRat g.count) hfitted.positive,
    Number.toRat_sub (Number.isFinite_ofRat g.count) (Number.isFinite_ofRat 1)]
  simp only [Number.toRat_ofRat, hfitted.displayed, hfitted.offset, hposition, PixelGrid.clamp]
  push_cast
  rfl

/-- **On one axis** the nearest pixel is sent for the points in the first half of their cells. -/
theorem ofNumber_scaledCoordinate_iff {g : PixelGrid ℚ} {start length : ℚ}
    {displayed offset : Number} (hfitted : Fitted displayed offset g.count length g.size)
    (hstart : g.start = start + (length - g.count * g.size) / 2) {client : ℚ} {i : ℤ}
    (hi : g.Nearest client i) :
    Json.ofNumber (scaledCoordinate (.ofRat g.count) displayed offset (.ofRat start)
        (.ofRat client)) = .num (.ofRat i) ↔ g.InFirstHalf client := by
  obtain ⟨hfinite, hvalue⟩ := toRat_scaledCoordinate _ _ hfitted hstart client
  rw [Json.ofNumber_eq hfinite, hvalue, Json.num.injEq, Number.ofRat_injective.eq_iff, Int.cast_inj,
    ← g.nearest_round_iff]
  constructor
  · rintro rfl
    exact hi
  · intro hnearest
    rw [g.nearest_iff.mp hi, ← g.nearest_iff.mp hnearest]

/-! ## Both axes -/

section Sending

variable {p : Page} {event : DomEvent}

/-- `sendInput` sends a message on a socket, with these coordinates. -/
def Page.SendsPixel (p : Page) (event : DomEvent) (rect : DomRect) (i j : ℤ) : Prop :=
  ∃ socket message,
    (p.sendInput event.inputType event.data rect).sent = p.sent ++ [(socket, message)] ∧
      message.member "x" = some (.num (.ofRat i)) ∧ message.member "y" = some (.num (.ofRat j))

/-- What is sent for an event of the mouse is its coordinates, scaled. -/
theorem sendsPixel_iff_scaled {width height : Number} (haccepts : p.Accepts width height)
    (hplace : event.hasCoordinates = true) (rect : DomRect) {i j : ℤ} :
    p.SendsPixel event rect i j ↔
      Json.ofNumber (event.scaled rect width height).1 = .num (.ofRat i) ∧
        Json.ofNumber (event.scaled rect width height).2 = .num (.ofRat j) := by
  obtain ⟨hx, hy⟩ := event.member_coordinates rect width height
  rw [hplace, if_pos rfl] at hx hy
  obtain ⟨socket, -, hsend⟩ := Page.send_of_open (event.object rect width height) haccepts.isOpen
  have hsent : (p.sendInput event.inputType event.data rect).sent =
      p.sent ++ [(socket, event.object rect width height)] := by
    rw [Page.sendInput, haccepts.inputMessage event rect]
    exact congrArg Page.sent hsend
  constructor
  · rintro ⟨socket', message, hmessage, hmx, hmy⟩
    rw [hsent] at hmessage
    obtain ⟨-, rfl⟩ := Prod.mk.inj (List.singleton_inj.mp (List.append_cancel_left hmessage))
    rw [hx] at hmx
    rw [hy] at hmy
    exact ⟨Option.some.inj hmx, Option.some.inj hmy⟩
  · rintro ⟨hmx, hmy⟩
    exact ⟨socket, _, hsent, hx.trans (congrArg some hmx), hy.trans (congrArg some hmy)⟩

/-- **The pixel under the pointer.** While a frame is shown, an event of the mouse is sent with the
pixel whose cell it falls into, or the nearest one, exactly when it lies in the first half of the
cell on both axes, or where there is no other pixel to choose. -/
theorem sendsPixel_iff (s : Shown) (haccepts : p.Accepts (.ofRat s.width) (.ofRat s.height))
    (hplace : event.hasCoordinates = true) {i j : ℤ} (hi : s.columns.Nearest event.client.1 i)
    (hj : s.rows.Nearest event.client.2 j) :
    p.SendsPixel event s.rect i j ↔
      s.columns.InFirstHalf event.client.1 ∧ s.rows.InFirstHalf event.client.2 := by
  obtain ⟨hcolumns, hrows⟩ := fitted_displayedImage s
  rw [sendsPixel_iff_scaled haccepts hplace,
    ← ofNumber_scaledCoordinate_iff (g := s.columns) hcolumns rfl hi,
    ← ofNumber_scaledCoordinate_iff (g := s.rows) hrows rfl hj]
  exact Iff.rfl

end Sending

/-! ## Two points -/

/-- A frame of 4 by 3 pixels, each shown 100 wide and high. -/
def shownSmall : Shown where
  rect := ⟨0, 0, 400, 300⟩
  width := 4
  height := 3
  rectWidth_pos := by decide
  rectHeight_pos := by decide
  width_pos := by decide
  height_pos := by decide

/-- The page that shows it. -/
def pageShowing : Page :=
  (viewer false).after (viewer false).start [.connect "localhost" "a" true, .opened 0,
    .message 0 (frameMessage 4 3), .loaded 0 4 3]

/-- A page that accepts input at its image. -/
theorem accepts_pageShowing :
    pageShowing.Accepts (.ofRat shownSmall.width) (.ofRat shownSmall.height) where
  isOpen := by decide +kernel
  originalWidth := by decide +kernel
  width_pos := by decide +kernel
  originalHeight := by decide +kernel
  height_pos := by decide +kernel

/-- A point in the first half of the cell of the pixel (1, 0). -/
theorem sendsPixel_first_half :
    pageShowing.SendsPixel (.mouse .mousemove 110 20 0) shownSmall.rect 1 0 :=
  (sendsPixel_iff shownSmall accepts_pageShowing rfl (by decide +kernel)
    (by decide +kernel)).mpr (by decide +kernel)

/-- One in the second half of the same cell: the pixel to the right is sent. -/
theorem sendsPixel_second_half :
    shownSmall.columns.Nearest 160 1 ∧ shownSmall.rows.Nearest 20 0 ∧
      pageShowing.SendsPixel (.mouse .mousemove 160 20 0) shownSmall.rect 2 0 ∧
      ¬ pageShowing.SendsPixel (.mouse .mousemove 160 20 0) shownSmall.rect 1 0 := by
  have hscaled : (DomEvent.mouse .mousemove 160 20 0).scaled shownSmall.rect
      (.ofRat shownSmall.width) (.ofRat shownSmall.height) = (.ofRat 2, .ofRat 0) := by
    decide +kernel
  have hne : (Number.ofRat 2) ≠ .ofRat 1 := by decide +kernel
  refine ⟨by decide +kernel, by decide +kernel, ?_, ?_⟩
  · rw [sendsPixel_iff_scaled accepts_pageShowing rfl, hscaled]
    exact ⟨Json.ofNumber_eq (Number.isFinite_ofRat 2), Json.ofNumber_eq (Number.isFinite_ofRat 0)⟩
  · rw [sendsPixel_iff_scaled accepts_pageShowing rfl, hscaled]
    rintro ⟨hx, -⟩
    rw [Json.ofNumber_eq (Number.isFinite_ofRat 2), Number.toRat_ofRat, Json.num.injEq] at hx
    exact hne hx

end BrowCast.Web
