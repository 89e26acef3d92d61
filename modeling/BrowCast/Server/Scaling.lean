import BrowCast.JavaScript.Arithmetic
import BrowCast.Server.Broadcast

/-! # The scale of a viewer

`calculateOptimalScale` divides what the viewer says of its window by what the agent says of its
screen. Neither handler looks at the numbers: the scale is the best one within its bounds when both
quotients exist, and NaN or an exception otherwise. -/

namespace BrowCast

/-! ## The numbers of a scale -/

/-- The operand `viewerScreen.key` of a multiplication. -/
def windowNumber (key : String) (viewerScreen : Option Json) : Except JsError Number := do
  Json.toNumber (← Json.property key viewerScreen)

/-- What a scale is computed from. -/
structure ScaleOperands (agentScreen : AgentScreen) (viewerScreen : Option Json)
    (windowWidth windowHeight width height : Number) : Prop where
  windowWidth : windowNumber "windowWidth" viewerScreen = .ok windowWidth
  windowHeight : windowNumber "windowHeight" viewerScreen = .ok windowHeight
  width : Json.toNumber agentScreen.width = .ok width
  height : Json.toNumber agentScreen.height = .ok height

/-- The smaller one of two quotients, of a part of the window and the screen, within bounds. -/
def scaleWithin (part lower upper : ℚ≥0) (windowWidth windowHeight width height : Number) :
    Number :=
  Number.max (.ofMagnitude lower) (Number.min
    (Number.min ((windowWidth.mul (.ofMagnitude part)).div width)
      ((windowHeight.mul (.ofMagnitude part)).div height)) (.ofMagnitude upper))

/-- Both quotients exist: all four values are numbers, none is NaN, and on neither axis both are
zero or both infinite. -/
def QuotientsExist (agentScreen : AgentScreen) (viewerScreen : Option Json) : Prop :=
  ∃ windowWidth windowHeight width height,
    ScaleOperands agentScreen viewerScreen windowWidth windowHeight width height ∧
      windowWidth.HasQuotient width ∧ windowHeight.HasQuotient height

/-! ## Usable scales -/

/-- The scale is a number from 0.1 to 2. -/
def InBounds (scale : Number) : Prop :=
  scale.IsFinite ∧ 1 / 10 ≤ scale.toRat ∧ scale.toRat ≤ 2

/-- A screen of this size is shown within nine tenths of a window of that size. -/
def FitsWindow (scale windowWidth windowHeight width height : ℚ) : Prop :=
  scale * width ≤ 9 / 10 * windowWidth ∧ scale * height ≤ 9 / 10 * windowHeight

/-- The scale fits, or is the least one; and no larger one up to 2 fits. -/
structure BestScale (scale windowWidth windowHeight width height : ℚ) : Prop where
  fits : scale = 1 / 10 ∨ FitsWindow scale windowWidth windowHeight width height
  best : ∀ larger, scale < larger → larger ≤ 2 →
    ¬ FitsWindow larger windowWidth windowHeight width height

/-- The scale is computed and is a number within its bounds, the best one when all four values are
positive rationals. -/
def ScaleUsable (agentScreen : AgentScreen) (viewerScreen : Option Json) : Prop :=
  ∃ scale, calculateOptimalScale agentScreen viewerScreen = .ok scale ∧ InBounds scale ∧
    ∀ windowWidth windowHeight width height : ℚ,
      0 < windowWidth → 0 < windowHeight → 0 < width → 0 < height →
        ScaleOperands agentScreen viewerScreen (.ofRat windowWidth) (.ofRat windowHeight)
            (.ofRat width) (.ofRat height) →
          BestScale scale.toRat windowWidth windowHeight width height

section Scales

variable {agentScreen : AgentScreen} {viewerScreen : Option Json}
  {windowWidth windowHeight width height : Number}

/-- A sequence returns when its first part does and the rest does on that value. -/
theorem bind_eq_ok_iff {α β : Type} {x : Except JsError α} {f : α → Except JsError β}
    {b : β} : (x >>= f) = .ok b ↔ ∃ a, x = .ok a ∧ f a = .ok b := by
  cases x with
  | error e => exact ⟨fun h => (by cases h), fun ⟨_, h, _⟩ => (by cases h)⟩
  | ok a => exact ⟨fun h => ⟨a, rfl, h⟩, fun ⟨_, ha, h⟩ => (by cases ha; exact h)⟩

/-- The scale is computed from four numbers, and there is none without them. -/
theorem calculateOptimalScale_eq_ok_iff {scale : Number} :
    calculateOptimalScale agentScreen viewerScreen = .ok scale ↔
      ∃ windowWidth windowHeight width height,
        ScaleOperands agentScreen viewerScreen windowWidth windowHeight width height ∧
          scale = scaleWithin (9 / 10) (1 / 10) 2 windowWidth windowHeight width height := by
  have hoperands : calculateOptimalScale agentScreen viewerScreen = (do
      let windowWidth ← windowNumber "windowWidth" viewerScreen
      let width ← Json.toNumber agentScreen.width
      let windowHeight ← windowNumber "windowHeight" viewerScreen
      let height ← Json.toNumber agentScreen.height
      .ok (scaleWithin (9 / 10) (1 / 10) 2 windowWidth windowHeight width height)) := by
    simp only [calculateOptimalScale, windowNumber, bind_assoc]
    rfl
  rw [hoperands]
  simp only [bind_eq_ok_iff]
  constructor
  · rintro ⟨windowWidth, hww, width, hw, windowHeight, hwh, height, hh, hscale⟩
    exact ⟨windowWidth, windowHeight, width, height, ⟨hww, hwh, hw, hh⟩,
      (Except.ok.inj hscale).symm⟩
  · rintro ⟨windowWidth, windowHeight, width, height, h, rfl⟩
    exact ⟨windowWidth, h.windowWidth, width, h.width, windowHeight, h.windowHeight, height,
      h.height, rfl⟩

/-- The operands are determined by the screens. -/
theorem ScaleOperands.unique {windowWidth' windowHeight' width' height' : Number}
    (h : ScaleOperands agentScreen viewerScreen windowWidth windowHeight width height)
    (h' : ScaleOperands agentScreen viewerScreen windowWidth' windowHeight' width' height') :
    windowWidth' = windowWidth ∧ windowHeight' = windowHeight ∧ width' = width ∧
      height' = height :=
  ⟨Except.ok.inj (h'.windowWidth.symm.trans h.windowWidth),
    Except.ok.inj (h'.windowHeight.symm.trans h.windowHeight),
    Except.ok.inj (h'.width.symm.trans h.width), Except.ok.inj (h'.height.symm.trans h.height)⟩

/-- The scale is within its bounds when both quotients exist, and NaN otherwise. -/
theorem inBounds_scaleWithin_iff :
    InBounds (scaleWithin (9 / 10) (1 / 10) 2 windowWidth windowHeight width height) ↔
      windowWidth.HasQuotient width ∧ windowHeight.HasQuotient height := by
  have hnine : (9 / 10 : ℚ≥0) ≠ 0 := by norm_num
  have hnan : Number.min ((windowWidth.mul (.ofMagnitude (9 / 10))).div width)
      ((windowHeight.mul (.ofMagnitude (9 / 10))).div height) ≠ .nan ↔
        windowWidth.HasQuotient width ∧ windowHeight.HasQuotient height := by
    rw [Number.min_ne_nan_iff, Number.div_ne_nan_iff, Number.div_ne_nan_iff,
      Number.hasQuotient_mul_iff hnine, Number.hasQuotient_mul_iff hnine]
  rw [← hnan, scaleWithin]
  constructor
  · rintro ⟨⟨s, m, hfinite⟩, -⟩ heq
    rw [heq] at hfinite
    cases hfinite
  · intro hne
    have hle : (1 / 10 : ℚ≥0) ≤ 2 := by decide +kernel
    obtain ⟨m, heq, hlower, hupper⟩ := Number.exists_clamp_eq hle hne
    rw [heq]
    refine ⟨⟨_, _, rfl⟩, ?_, ?_⟩
    · exact_mod_cast hlower
    · exact_mod_cast hupper

/-- For rationals, the screen's positive, the scale is the best one. -/
theorem bestScale_scaleWithin (ww wh : ℚ) {w h : ℚ} (hw : 0 < w) (hh : 0 < h) :
    BestScale (scaleWithin (9 / 10) (1 / 10) 2 (.ofRat ww) (.ofRat wh) (.ofRat w) (.ofRat h)).toRat
      ww wh w h := by
  have hnine : (Number.ofMagnitude (9 / 10)).IsFinite := ⟨_, _, rfl⟩
  have hlower : (Number.ofMagnitude (1 / 10)).IsFinite := ⟨_, _, rfl⟩
  have hupper : (Number.ofMagnitude 2).IsFinite := ⟨_, _, rfl⟩
  -- one of the two quotients
  have hvalue {a b : ℚ} (hb : 0 < b) :
      (((Number.ofRat a).mul (.ofMagnitude (9 / 10))).div (.ofRat b)).IsFinite ∧
        (((Number.ofRat a).mul (.ofMagnitude (9 / 10))).div (.ofRat b)).toRat =
          9 / 10 * a / b := by
    have hprod := (Number.isFinite_ofRat a).mul hnine
    refine ⟨hprod.div (Number.isPositive_ofRat hb), ?_⟩
    rw [Number.toRat_div hprod (Number.isPositive_ofRat hb),
      Number.toRat_mul (Number.isFinite_ofRat a) hnine, Number.toRat_ofRat, Number.toRat_ofRat,
      mul_comm a]
    norm_num [Number.ofMagnitude]
  obtain ⟨hx, hxval⟩ := hvalue (a := ww) hw
  obtain ⟨hy, hyval⟩ := hvalue (a := wh) hh
  have hscale : (scaleWithin (9 / 10) (1 / 10) 2 (.ofRat ww) (.ofRat wh) (.ofRat w)
        (.ofRat h)).toRat =
      max (1 / 10) (min (min (9 / 10 * ww / w) (9 / 10 * wh / h)) 2) := by
    rw [scaleWithin, Number.toRat_max hlower ((hx.min hy).min hupper),
      Number.toRat_min (hx.min hy) hupper, Number.toRat_min hx hy, hxval, hyval]
    norm_num [Number.ofMagnitude]
  rw [hscale]
  constructor
  · -- below the lower bound nothing fits, above it the smaller quotient does
    rcases le_total (min (min (9 / 10 * ww / w) (9 / 10 * wh / h)) 2) (1 / 10) with hsmall | hlarge
    · exact .inl (max_eq_left hsmall)
    · rw [max_eq_right hlarge]
      refine .inr ⟨?_, ?_⟩
      · exact (le_div_iff₀ hw).mp ((min_le_left _ _).trans (min_le_left _ _))
      · exact (le_div_iff₀ hh).mp ((min_le_left _ _).trans (min_le_right _ _))
  · -- a larger scale that fits would be one of the candidates
    rintro larger hlarger htwo ⟨hfitsWidth, hfitsHeight⟩
    have hle : larger ≤ min (min (9 / 10 * ww / w) (9 / 10 * wh / h)) 2 :=
      le_min (le_min ((le_div_iff₀ hw).mpr hfitsWidth) ((le_div_iff₀ hh).mpr hfitsHeight)) htwo
    exact absurd (hle.trans (le_max_right _ _)) hlarger.not_ge

/-- **Usable scales.** The scale is usable exactly when both quotients exist. -/
theorem scaleUsable_iff : ScaleUsable agentScreen viewerScreen ↔
    QuotientsExist agentScreen viewerScreen := by
  constructor
  · rintro ⟨scale, hscale, hbounds, -⟩
    obtain ⟨windowWidth, windowHeight, width, height, h, rfl⟩ :=
      calculateOptimalScale_eq_ok_iff.mp hscale
    exact ⟨windowWidth, windowHeight, width, height, h, inBounds_scaleWithin_iff.mp hbounds⟩
  · rintro ⟨windowWidth, windowHeight, width, height, h, hquotients⟩
    refine ⟨_, calculateOptimalScale_eq_ok_iff.mpr ⟨_, _, _, _, h, rfl⟩,
      inBounds_scaleWithin_iff.mpr hquotients, ?_⟩
    intro ww wh w h' _ _ hw hh hrational
    obtain ⟨rfl, rfl, rfl, rfl⟩ := h.unique hrational
    exact bestScale_scaleWithin ww wh hw hh

end Scales

/-- A viewer says nothing of its window: its screen is an object without members. -/
def emptyScreen : List Event :=
  [.connect 0 ⟨some "/agent", .one "s"⟩ 0, .message 0 fullHd 1,
    .connect 1 ⟨some "/viewer", .one "s"⟩ 2,
    .message 1 ⟨"\x7b\"type\":\"client_info\",\"screen\":\x7b\x7d\x7d",
      some (.obj [("type", .str "client_info"), ("screen", .obj [])])⟩ 3]

/-- The screen is stored, and the scale that is computed for it and sent is NaN. -/
theorem not_scaleUsable_emptyScreen :
    relay.IsRun emptyScreen ∧
      ((relay.after relay.start emptyScreen).sessionAt 0).clientScreens.get? 1 =
        some (some (.obj [])) ∧
      (∃ agentScreen, ((relay.after relay.start emptyScreen).sessionAt 0).agentScreen =
        some agentScreen ∧
          calculateOptimalScale agentScreen (some (.obj [])) = .ok .nan ∧
          ((relay.after relay.start emptyScreen).conn 1).sent.getLast? =
            some (.setScale .nan agentScreen.width agentScreen.height) ∧
          ¬ ScaleUsable agentScreen (some (.obj []))) := by
  have hnan : calculateOptimalScale (screenOf (.obj [("type", .str "screen_info"),
      ("width", .num (.ofMagnitude 1920)), ("height", .num (.ofMagnitude 1080))]))
        (some (.obj [])) = .ok .nan := by rfl
  refine ⟨by decide, rfl, _, rfl, hnan, rfl, ?_⟩
  rintro ⟨scale, hscale, ⟨⟨s, m, rfl⟩, -⟩, -⟩
  cases hnan.symm.trans hscale

end BrowCast
