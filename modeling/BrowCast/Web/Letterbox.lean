import BrowCast.Web.NewestFrame
import BrowCast.Web.PixelCells

/-! # The letterbox

`sendInput` finds where the frame is shown by one of two branches, for frames wider than the canvas
element and for the others. Each gives the largest rectangle of the frame's proportions in the
middle of the element, they agree when the proportions are the same, none of the divisions on the
way is by zero, and what is sent is a pixel of the frame, further right and further down for points
that are. -/

namespace BrowCast

/-- Division that fails when the divisor is zero. -/
def Number.checkedDiv (a b : Number) : Option Number :=
  if b = .finite false 0 ∨ b = .finite true 0 then none else some (a.div b)

/-- A positive divisor is not zero. -/
theorem Number.checkedDiv_of_isPositive (a : Number) {b : Number} (hb : b.IsPositive) :
    a.checkedDiv b = some (a.div b) := by
  obtain ⟨m, hm, rfl⟩ := hb
  apply if_neg
  rintro (hzero | hzero)
  · exact hm.ne' (Number.finite.inj hzero).2
  · exact absurd (Number.finite.inj hzero).1 Bool.false_ne_true

namespace Web

variable (s : Shown)

/-! ## The displayed rectangle -/

/-- An image displayed with the proportions of the frame, inside the element, in the middle of it,
and as long as it on one axis at least. -/
structure Shown.Letterboxed (shown : DisplayedImage) : Prop where
  finiteX : shown.displayOffsetX.IsFinite
  finiteY : shown.displayOffsetY.IsFinite
  width_pos : shown.displayedImageWidth.IsPositive
  height_pos : shown.displayedImageHeight.IsPositive
  proportions : shown.displayedImageWidth.toRat / shown.displayedImageHeight.toRat =
    (s.width : ℚ) / s.height
  offsetX_nonneg : 0 ≤ shown.displayOffsetX.toRat
  offsetY_nonneg : 0 ≤ shown.displayOffsetY.toRat
  insideX : shown.displayOffsetX.toRat + shown.displayedImageWidth.toRat ≤ s.rect.width
  insideY : shown.displayOffsetY.toRat + shown.displayedImageHeight.toRat ≤ s.rect.height
  centredX : s.rect.width - (shown.displayOffsetX.toRat + shown.displayedImageWidth.toRat) =
    shown.displayOffsetX.toRat
  centredY : s.rect.height - (shown.displayOffsetY.toRat + shown.displayedImageHeight.toRat) =
    shown.displayOffsetY.toRat
  touches : (shown.displayOffsetX.toRat = 0 ∧ shown.displayedImageWidth.toRat = s.rect.width) ∨
    (shown.displayOffsetY.toRat = 0 ∧ shown.displayedImageHeight.toRat = s.rect.height)

/-- What is displayed fits on both axes. -/
theorem Shown.width_mul_scale_le : s.width * s.scale ≤ s.rect.width := by
  have hwidth : (0 : ℚ) < s.width := by exact_mod_cast s.width_pos
  have hscale : s.scale ≤ s.rect.width / s.width := min_le_left _ _
  rw [le_div_iff₀ hwidth] at hscale
  rwa [mul_comm]

/-- The image is no higher than the element. -/
theorem Shown.height_mul_scale_le : s.height * s.scale ≤ s.rect.height := by
  have hheight : (0 : ℚ) < s.height := by exact_mod_cast s.height_pos
  have hscale : s.scale ≤ s.rect.height / s.height := min_le_right _ _
  rw [le_div_iff₀ hheight] at hscale
  rwa [mul_comm]

/-- The scale is that of one of the axes. -/
theorem Shown.mul_scale_eq : s.width * s.scale = s.rect.width ∨
    s.height * s.scale = s.rect.height := by
  have hwidth : (s.width : ℚ) ≠ 0 := by exact_mod_cast s.width_pos.ne'
  have hheight : (s.height : ℚ) ≠ 0 := by exact_mod_cast s.height_pos.ne'
  rcases min_choice (s.rect.width / s.width) (s.rect.height / s.height) with hscale | hscale
  · left
    rw [Shown.scale, hscale, mul_div_cancel₀ _ hwidth]
  · right
    rw [Shown.scale, hscale, mul_div_cancel₀ _ hheight]

variable {s}

/-- An image fitted into the element has its aspect and lies in the middle. -/
theorem Shown.FittedBy.letterboxed {shown : DisplayedImage} (h : s.FittedBy shown) :
    s.Letterboxed shown := by
  have hscale := s.scale_pos
  have hwidth := s.width_mul_scale_le
  have hheight := s.height_mul_scale_le
  obtain ⟨hx, hy⟩ := h
  refine ⟨hx.finite, hy.finite, hx.positive, hy.positive, ?_, ?_, ?_, ?_, ?_, ?_, ?_, ?_⟩
  · -- the proportions, then the bounds, the middle, and the side that is touched
    rw [hx.displayed, hy.displayed, mul_div_mul_right _ _ hscale.ne']
  · rw [hx.offset]
    linarith
  · rw [hy.offset]
    linarith
  · rw [hx.offset, hx.displayed]
    linarith
  · rw [hy.offset, hy.displayed]
    linarith
  · rw [hx.offset, hx.displayed]
    ring
  · rw [hy.offset, hy.displayed]
    ring
  · rw [hx.offset, hx.displayed, hy.offset, hy.displayed]
    refine s.mul_scale_eq.imp (fun hfills => ⟨?_, hfills⟩) fun hfills => ⟨?_, hfills⟩
    · rw [hfills, sub_self, zero_div]
    · rw [hfills, sub_self, zero_div]

/-- Which way of scaling is the smaller one, by the proportions. -/
theorem Shown.scales_le_iff : s.rect.width / s.width ≤ s.rect.height / s.height ↔
    s.rect.width / s.rect.height ≤ (s.width : ℚ) / s.height := by
  have hwidth : (0 : ℚ) < s.width := by exact_mod_cast s.width_pos
  have hheight : (0 : ℚ) < s.height := by exact_mod_cast s.height_pos
  rw [div_le_div_iff₀ hwidth hheight, div_le_div_iff₀ s.rectHeight_pos hheight,
    mul_comm (s.width : ℚ)]

/-- The page's comparison of aspects is a comparison of scales. -/
theorem Shown.scales_ge_iff : s.rect.height / s.height ≤ s.rect.width / s.width ↔
    (s.width : ℚ) / s.height ≤ s.rect.width / s.rect.height := by
  have hwidth : (0 : ℚ) < s.width := by exact_mod_cast s.width_pos
  have hheight : (0 : ℚ) < s.height := by exact_mod_cast s.height_pos
  rw [div_le_div_iff₀ hheight hwidth, div_le_div_iff₀ hheight s.rectHeight_pos,
    mul_comm (s.width : ℚ)]

/-- The two branches agree on an element with the proportions of the frame. -/
theorem fillingWidth_eq_fillingHeight
    (hequal : (s.width : ℚ) / s.height = s.rect.width / s.rect.height) :
    fillingWidth s.rect ((Number.ofRat s.width).div (.ofRat s.height)) =
      fillingHeight s.rect ((Number.ofRat s.width).div (.ofRat s.height)) := by
  have hwidth : (0 : ℚ) < s.width := by exact_mod_cast s.width_pos
  have hheight : (0 : ℚ) < s.height := by exact_mod_cast s.height_pos
  have hrectWidth := Number.isPositive_ofRat s.rectWidth_pos
  have hrectHeight := Number.isPositive_ofRat s.rectHeight_pos
  obtain ⟨haspect, hratio⟩ := aspectRatio s
  -- each branch computes the side that the other one takes from the element
  have hhigh : (Number.ofRat s.rect.width).div ((Number.ofRat s.width).div (.ofRat s.height)) =
      .ofRat s.rect.height := by
    rw [← (hrectWidth.div haspect).ofRat_toRat, Number.toRat_div hrectWidth.isFinite haspect,
      hratio, Number.toRat_ofRat, hequal, div_div_cancel₀ s.rectWidth_pos.ne']
  have hwide : (Number.ofRat s.rect.height).mul ((Number.ofRat s.width).div (.ofRat s.height)) =
      .ofRat s.rect.width := by
    rw [← (hrectHeight.mul haspect).ofRat_toRat,
      Number.toRat_mul hrectHeight.isFinite haspect.isFinite, hratio, Number.toRat_ofRat, hequal,
      mul_div_cancel₀ _ s.rectHeight_pos.ne']
  have hzero : (Number.ofRat 0).div (.ofRat 2) = .ofRat 0 := by decide +kernel
  rw [fillingWidth, fillingHeight, hhigh, hwide, Number.sub_self_of_isPositive hrectWidth,
    Number.sub_self_of_isPositive hrectHeight, hzero]

/-! ## Every division -/

/-- The letterbox of `sendInput`, each division checked: also `canvasAspectRatio`, which nothing
uses. -/
def checkedCoordinates (canvas : Canvas) (rect : DomRect)
    (originalWidth originalHeight x y : Number) :
    Option (Number × Number) := do
  let width := Number.ofRat rect.width
  let height := Number.ofRat rect.height
  let _canvasAspectRatio ← (Number.ofRat canvas.width).checkedDiv (.ofRat canvas.height)
  let imageAspectRatio ← originalWidth.checkedDiv originalHeight
  let rectAspectRatio ← width.checkedDiv height
  let shown ←
    if imageAspectRatio.greater rectAspectRatio then do
      let displayedImageHeight ← width.checkedDiv imageAspectRatio
      let displayOffsetY ← (height.sub displayedImageHeight).checkedDiv (.ofRat 2)
      pure (⟨width, displayedImageHeight, .ofRat 0, displayOffsetY⟩ : DisplayedImage)
    else do
      let displayedImageWidth := height.mul imageAspectRatio
      let displayOffsetX ← (width.sub displayedImageWidth).checkedDiv (.ofRat 2)
      pure (⟨displayedImageWidth, height, displayOffsetX, .ofRat 0⟩ : DisplayedImage)
  let clickXRelativeToImage := (x.sub (.ofRat rect.left)).sub shown.displayOffsetX
  let clickYRelativeToImage := (y.sub (.ofRat rect.top)).sub shown.displayOffsetY
  let scaleX ← originalWidth.checkedDiv shown.displayedImageWidth
  let scaleY ← originalHeight.checkedDiv shown.displayedImageHeight
  let scaledX := (clickXRelativeToImage.mul scaleX).round
  let scaledY := (clickYRelativeToImage.mul scaleY).round
  return (Number.max (.ofRat 0) (Number.min scaledX (originalWidth.sub (.ofRat 1))),
    Number.max (.ofRat 0) (Number.min scaledY (originalHeight.sub (.ofRat 1))))

/-- No division is by zero, and what is sent is what they compute. -/
theorem checkedCoordinates_eq {canvas : Canvas} (hcanvas : 0 < canvas.height) (x y : Number) :
    checkedCoordinates canvas s.rect (.ofRat s.width) (.ofRat s.height) x y =
      some (scaledCoordinates s.rect (.ofRat s.width) (.ofRat s.height) x y) := by
  have hrectWidth := Number.isPositive_ofRat s.rectWidth_pos
  have hrectHeight := Number.isPositive_ofRat s.rectHeight_pos
  have hheight : (Number.ofRat s.height).IsPositive :=
    Number.isPositive_ofRat (by exact_mod_cast s.height_pos)
  have hbuffer : (Number.ofRat canvas.height).IsPositive :=
    Number.isPositive_ofRat (by exact_mod_cast hcanvas)
  have htwo := Number.isPositive_ofRat (two_pos : (0 : ℚ) < 2)
  obtain ⟨haspect, -⟩ := aspectRatio s
  simp only [checkedCoordinates, scaledCoordinates, scaledCoordinate, displayedImage_eq_ite,
    Number.checkedDiv_of_isPositive _ hbuffer, Number.checkedDiv_of_isPositive _ hheight,
    Number.checkedDiv_of_isPositive _ hrectHeight, Number.checkedDiv_of_isPositive _ haspect,
    Number.checkedDiv_of_isPositive _ htwo, bind, Option.bind_some, pure]
  split
  · rw [Number.checkedDiv_of_isPositive _ hrectWidth,
      Number.checkedDiv_of_isPositive _ (hrectWidth.div haspect)]
    rfl
  · rw [Number.checkedDiv_of_isPositive _ (hrectHeight.mul haspect)]
    rfl

/-! ## The canvas of the page -/

/-- The images that load have pixels. -/
def PageEvent.LoadsPixels : PageEvent → Prop
  | .loaded _ width height => 0 < width ∧ 0 < height
  | _ => True

/-- The drawing buffer of the canvas keeps a size other than zero. -/
theorem canvas_pos {https : Bool} {es : List PageEvent} (hrun : (viewer https).IsRun es)
    (himages : ∀ e ∈ es, e.LoadsPixels) :
    0 < ((viewer https).after (viewer https).start es).canvas.height := by
  have hstart : 0 < (viewer https).start.canvas.height := Nat.succ_pos 599
  refine ((viewer https).states_of_steps (I := fun p => 0 < p.canvas.height) ?_ hstart hrun
    ((viewer https).steps_iff_forall_mem.mpr himages)).last
  intro p e hp he hpixels
  by_cases hmessage : ∃ i m, e = .message i m
  · obtain ⟨i, m, rfl⟩ := hmessage
    show 0 < (p.onmessage i m).canvas.height
    rw [canvas_onmessage]
    exact hp
  · by_cases hloaded : ∃ n w h, e = .loaded n w h
    · obtain ⟨n, w, h, rfl⟩ := hloaded
      obtain ⟨img, -, hstep⟩ := Page.exists_step_loaded he
      show 0 < (p.step (.loaded n w h)).canvas.height
      rw [hstep]
      exact hpixels.2
    · obtain ⟨sockets, ws, canvas, display, sent, disconnected, hcanvas, -, hstep⟩ :=
        Page.exists_step_eq he (fun i m heq => hmessage ⟨i, m, heq⟩)
          fun n w h heq => hloaded ⟨n, w, h, heq⟩
      show 0 < (p.step e).canvas.height
      rw [hstep]
      rcases hcanvas with hsame | hclosed
      · rw [hsame]
        exact hp
      · rw [hclosed]
        exact Nat.succ_pos 599

/-! ## What is sent -/

/-- An event of the mouse is sent with the rounded and clamped numbers of its column and row. -/
theorem sendsPixel_rounded {p : Page} {event : DomEvent}
    (haccepts : p.Accepts (.ofRat s.width) (.ofRat s.height))
    (hplace : event.hasCoordinates = true) :
    p.SendsPixel event s.rect (s.columns.clamp ⌊s.columns.position event.client.1 + 1 / 2⌋)
      (s.rows.clamp ⌊s.rows.position event.client.2 + 1 / 2⌋) := by
  obtain ⟨hx, hy⟩ := fitted_displayedImage s
  obtain ⟨hfiniteX, hvalueX⟩ :=
    toRat_scaledCoordinate s.columns s.rect.left hx rfl event.client.1
  obtain ⟨hfiniteY, hvalueY⟩ :=
    toRat_scaledCoordinate s.rows s.rect.top hy rfl event.client.2
  rw [sendsPixel_iff_scaled haccepts hplace]
  constructor
  · exact (Json.ofNumber_eq hfiniteX).trans (congrArg (fun q => Json.num (.ofRat q)) hvalueX)
  · exact (Json.ofNumber_eq hfiniteY).trans (congrArg (fun q => Json.num (.ofRat q)) hvalueY)

/-- **The letterbox is sound and safe.** Where its condition holds, each branch displays the frame
with its proportions, inside the element, in the middle, and touching it; the branches agree on an
element of the frame's proportions. On a page whose images have pixels no division is by zero. And
the events of the mouse, wherever they are, are sent with a column and a row of the frame, in the
order of the client coordinates. -/
theorem letterbox_sound (s : Shown) :
    let imageAspectRatio := (Number.ofRat s.width).div (.ofRat s.height)
    (displayedImage s.rect imageAspectRatio =
      if imageAspectRatio.greater ((Number.ofRat s.rect.width).div (.ofRat s.rect.height)) then
        fillingWidth s.rect imageAspectRatio
      else fillingHeight s.rect imageAspectRatio) ∧
    (s.rect.width / s.rect.height ≤ (s.width : ℚ) / s.height →
      s.Letterboxed (fillingWidth s.rect imageAspectRatio)) ∧
    ((s.width : ℚ) / s.height ≤ s.rect.width / s.rect.height →
      s.Letterboxed (fillingHeight s.rect imageAspectRatio)) ∧
    s.Letterboxed (displayedImage s.rect imageAspectRatio) ∧
    ((s.width : ℚ) / s.height = s.rect.width / s.rect.height →
      fillingWidth s.rect imageAspectRatio = fillingHeight s.rect imageAspectRatio) ∧
    (∀ https es, (viewer https).IsRun es → (∀ e ∈ es, e.LoadsPixels) → ∀ x y,
      checkedCoordinates ((viewer https).after (viewer https).start es).canvas s.rect
          (.ofRat s.width) (.ofRat s.height) x y =
        some (scaledCoordinates s.rect (.ofRat s.width) (.ofRat s.height) x y)) ∧
    ∃ column row : ℚ → ℤ,
      (Monotone column ∧ ∀ c, column c ∈ Set.Icc 0 ((s.width : ℤ) - 1)) ∧
      (Monotone row ∧ ∀ c, row c ∈ Set.Icc 0 ((s.height : ℤ) - 1)) ∧
      ∀ (p : Page) (event : DomEvent), p.Accepts (.ofRat s.width) (.ofRat s.height) →
        event.hasCoordinates = true →
        p.SendsPixel event s.rect (column event.client.1) (row event.client.2) := by
  refine ⟨displayedImage_eq_ite _ _, ?_, ?_, (fitted_displayedImage s).letterboxed,
    fillingWidth_eq_fillingHeight, ?_, fun c => s.columns.clamp ⌊s.columns.position c + 1 / 2⌋,
    fun c => s.rows.clamp ⌊s.rows.position c + 1 / 2⌋, ?_, ?_, ?_⟩
  · intro hwide
    exact (fitted_fillingWidth s (Shown.scales_le_iff.mpr hwide)).letterboxed
  · intro hhigh
    exact (fitted_fillingHeight s (Shown.scales_ge_iff.mpr hhigh)).letterboxed
  · intro https es hrun himages x y
    exact checkedCoordinates_eq (canvas_pos hrun himages) x y
  · exact ⟨s.columns.monotone_clamp_round, fun c => s.columns.clamp_mem_Icc _⟩
  · exact ⟨s.rows.monotone_clamp_round, fun c => s.rows.clamp_mem_Icc _⟩
  · intro p event haccepts hplace
    exact sendsPixel_rounded haccepts hplace

end Web

end BrowCast
