import BrowCast.Agent.CaptureManager
import Mathlib.Tactic.SplitIfs
import Mathlib.Tactic.ByContra

/-! # The two ways to draw a window

`PrintWindow` draws the client area of a window, and `BitBlt` copies the desktop from a source point
on. Size and source point are those of the window rectangle, when there is one: the two ways show
the same points of the desktop for windows without a frame. -/

namespace BrowCast

/-- A window whose client area covers a rectangle of the desktop. -/
structure PlacedWindow where
  hwnd : Window
  /-- The client area on the desktop. -/
  place : Rect
  /-- `GetClientRect` answers the size of the client area. -/
  clientRect : ∀ r ∈ hwnd.clientRect,
    r = ⟨0, 0, place.right - place.left, place.bottom - place.top⟩
  /-- `MapWindowPoints` answers its corners. -/
  mappedClient : ∀ r ∈ hwnd.mappedClient, r = place

namespace PlacedWindow

variable (w : PlacedWindow)

/-- The window, with the answer of `PrintWindow`. -/
def printing (printWindow : Bool) : Window := { w.hwnd with printWindow := printWindow }

/-- The size of the area that is drawn: `PrintWindow` draws the client area, `BitBlt` what it is
told to. -/
def drawnSize (area : Area) (printWindow : Bool) : ℤ × ℤ :=
  if printWindow then (w.place.right - w.place.left, w.place.bottom - w.place.top)
  else (area.width, area.height)

/-- The point of the desktop whose contents are drawn at a pixel, if any are. -/
def desktopPoint (area : Area) (printWindow : Bool) (x y : ℤ) : Option (ℤ × ℤ) :=
  if printWindow then
    if x < w.place.right - w.place.left ∧ y < w.place.bottom - w.place.top then
      some (w.place.left + x, w.place.top + y)
    else none
  else some (area.x_src + x, area.y_src + y)

/-- Both ways draw the whole frame, and the same point of the desktop at each pixel of it. -/
structure PathsAgree (area : Area) : Prop where
  size : ∀ printWindow, w.drawnSize area printWindow = (area.width, area.height)
  point : ∀ x y, 0 ≤ x → x < area.width → 0 ≤ y → y < area.height →
    w.desktopPoint area true x y = w.desktopPoint area false x y

/-- A rectangle is the client area, wherever it lies if it is empty. -/
def IsClientArea (r : Rect) : Prop :=
  (r.right - r.left = w.place.right - w.place.left ∧
    r.bottom - r.top = w.place.bottom - w.place.top) ∧
      (0 < r.right - r.left → 0 < r.bottom - r.top →
        r.left = w.place.left ∧ r.top = w.place.top)

/-- The window rectangle is the client area; or there is none and the client area is mapped; or
neither is there, and the client area lies in the corner of the desktop. -/
def Frameless : Prop :=
  match w.hwnd.windowRect, w.hwnd.mappedClient with
  | some window_rect, _ => w.IsClientArea window_rect
  | none, some _ => True
  | none, none =>
      w.IsClientArea ⟨0, 0, w.place.right - w.place.left, w.place.bottom - w.place.top⟩

/-! ## What is drawn -/

section Drawing

variable {w} {area : Area}

/-- What is in the bitmap: the contents of the desktop at these points, when nothing covers the
window. -/
theorem drawn_eq (win32 : Win32) (printWindow : Bool) (hclient : w.hwnd.clientRect.isSome)
    (hvisible : ∀ x y, 0 ≤ x → x < w.place.right - w.place.left → 0 ≤ y →
      y < w.place.bottom - w.place.top →
        w.hwnd.client x y = win32.screen (w.place.left + x) (w.place.top + y))
    {x y : ℤ} (hx : 0 ≤ x) (hy : 0 ≤ y) :
    drawn win32 (some (w.printing printWindow)) area x y =
      match w.desktopPoint area printWindow x y with
      | some point => win32.screen point.1 point.2
      | none => win32.fresh x y := by
  obtain ⟨r, hr⟩ := Option.isSome_iff_exists.mp hclient
  cases printWindow with
  | false => rfl
  | true =>
      have hprinted (c : ℕ) : drawn win32 (some (w.printing true)) area x y c =
          if x < w.place.right - w.place.left ∧ y < w.place.bottom - w.place.top then
            w.hwnd.client x y c
          else win32.fresh x y c := by
        simp [drawn, printing, hr, w.clientRect r hr]
      funext c
      rw [hprinted c, desktopPoint, if_pos rfl]
      by_cases hin : x < w.place.right - w.place.left ∧ y < w.place.bottom - w.place.top
      · rw [if_pos hin, if_pos hin, hvisible x y hx hin.1 hy hin.2]
      · rw [if_neg hin, if_neg hin]

/-- So where both ways agree they draw the same picture. -/
theorem drawn_eq_of_pathsAgree (win32 : Win32) (hclient : w.hwnd.clientRect.isSome)
    (hvisible : ∀ x y, 0 ≤ x → x < w.place.right - w.place.left → 0 ≤ y →
      y < w.place.bottom - w.place.top →
        w.hwnd.client x y = win32.screen (w.place.left + x) (w.place.top + y))
    (hagree : w.PathsAgree area) {x y : ℤ} (hx : 0 ≤ x) (hx' : x < area.width) (hy : 0 ≤ y)
    (hy' : y < area.height) :
    drawn win32 (some (w.printing true)) area x y =
      drawn win32 (some (w.printing false)) area x y := by
  rw [drawn_eq win32 true hclient hvisible hx hy, drawn_eq win32 false hclient hvisible hx hy,
    hagree.point x y hx hx' hy hy']

/-! ## The area -/

/-- The rectangle of the desktop that an area is. -/
def areaRect (area : Area) : Rect :=
  ⟨area.x_src, area.y_src, area.x_src + area.width, area.y_src + area.height⟩

/-- The area that is captured is the client area exactly for windows without a frame. -/
theorem isClientArea_iff {metrics : SystemMetrics}
    (harea : sourceArea metrics (some w.hwnd) = some area) :
    w.IsClientArea (areaRect area) ↔ w.Frameless := by
  unfold Frameless
  cases hclient : w.hwnd.clientRect with
  | none => simp [sourceArea, hclient] at harea
  | some client_rect =>
      obtain rfl := w.clientRect client_rect hclient
      -- the window rectangle, or else the client area, mapped or not
      cases hwindow : w.hwnd.windowRect with
      | some window_rect =>
          simp only [sourceArea, hclient, hwindow, Option.some.injEq] at harea
          subst harea
          simp only [IsClientArea, areaRect, sourceArea.ofRect]
          omega
      | none =>
          cases hmapped : w.hwnd.mappedClient with
          | some points =>
              simp only [sourceArea, hclient, hwindow, hmapped, Option.some.injEq] at harea
              subst harea
              obtain rfl := w.mappedClient points hmapped
              refine iff_of_true ⟨?_, fun _ _ => ⟨rfl, rfl⟩⟩ trivial
              simp only [areaRect, sourceArea.ofRect]
              omega
          | none =>
              simp only [sourceArea, hclient, hwindow, hmapped, Option.some.injEq] at harea
              subst harea
              simp only [IsClientArea, areaRect, sourceArea.ofRect]
              omega

/-- The two ways agree exactly when the area is the client area. -/
theorem pathsAgree_iff_isClientArea :
    w.PathsAgree area ↔ w.IsClientArea (areaRect area) := by
  constructor
  · intro h
    have hsize := h.size true
    simp only [drawnSize, if_true, Prod.mk.injEq] at hsize
    refine ⟨by simp only [areaRect]; omega, fun hwidth hheight => ?_⟩
    simp only [areaRect] at hwidth hheight ⊢
    -- the two points agree at the first pixel
    have hpoint := h.point 0 0 (Int.le_refl 0) (by omega) (Int.le_refl 0) (by omega)
    rw [desktopPoint, if_pos rfl, if_pos (by omega), desktopPoint,
      if_neg Bool.false_ne_true] at hpoint
    simp only [Option.some.injEq, Prod.mk.injEq] at hpoint
    omega
  · rintro ⟨hsize, horigin⟩
    simp only [areaRect] at hsize horigin
    refine ⟨fun printWindow => ?_, fun x y hx hx' hy hy' => ?_⟩
    · cases printWindow with
      | false => rfl
      | true =>
          rw [drawnSize, if_pos rfl, Prod.mk.injEq]
          omega
    · obtain ⟨hleft, htop⟩ := horigin (by omega) (by omega)
      rw [desktopPoint, if_pos rfl, if_pos (by omega), desktopPoint, if_neg Bool.false_ne_true,
        hleft, htop]

/-- **Which windows are captured alike.** Both ways show the same points of the desktop, and draw
the whole frame, exactly for windows without a frame of their own. -/
theorem pathsAgree_iff_frameless (metrics : SystemMetrics)
    (harea : sourceArea metrics (some w.hwnd) = some area) :
    w.PathsAgree area ↔ w.Frameless := by
  rw [pathsAgree_iff_isClientArea, isClientArea_iff harea]

end Drawing

/-- A window at a place, with the window rectangle. -/
def windowAt (place window_rect : Rect) : PlacedWindow where
  hwnd := {
    clientRect := some ⟨0, 0, place.right - place.left, place.bottom - place.top⟩
    windowRect := some window_rect
    mappedClient := some place
    printWindow := true
    client := fun _ _ _ => 0 }
  place := place
  clientRect := by simp
  mappedClient := by simp

/-- A window without title bar and borders. -/
theorem pathsAgree_borderless :
    (windowAt ⟨100, 100, 740, 580⟩ ⟨100, 100, 740, 580⟩).PathsAgree ⟨640, 480, 100, 100⟩ :=
  (pathsAgree_iff_frameless ⟨1920, 1080, 0, 0, 1920, 1080⟩ rfl).mpr
    (by simp [Frameless, windowAt, IsClientArea])

/-- A window of 640 by 480 pixels, with title bar and borders. -/
def titled : PlacedWindow := windowAt ⟨108, 131, 748, 611⟩ ⟨100, 100, 756, 619⟩

/-- The frame is larger than what `PrintWindow` draws, and its first pixel shows the corner of the
client area, while `BitBlt` copies the corner of the window. -/
theorem not_pathsAgree_titled :
    sourceArea ⟨1920, 1080, 0, 0, 1920, 1080⟩ (some titled.hwnd) = some ⟨656, 519, 100, 100⟩ ∧
      titled.drawnSize ⟨656, 519, 100, 100⟩ true = (640, 480) ∧
      titled.desktopPoint ⟨656, 519, 100, 100⟩ true 0 0 = some (108, 131) ∧
      titled.desktopPoint ⟨656, 519, 100, 100⟩ false 0 0 = some (100, 100) ∧
      ¬ titled.PathsAgree ⟨656, 519, 100, 100⟩ := by
  refine ⟨rfl, by decide, by decide, by decide, fun h => ?_⟩
  have hpoint := h.point 0 0 (Int.le_refl 0) (by decide) (Int.le_refl 0) (by decide)
  revert hpoint
  decide

end PlacedWindow

end BrowCast
