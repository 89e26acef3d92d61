import BrowCast.Agent.CaptureManager
import BrowCast.Runs.GuardedMachine
import BrowCast.Runs.Ledger
import Mathlib.Algebra.Order.BigOperators.Group.List
import Mathlib.Algebra.Order.Ring.Nat

/-! # The GDI objects of a capture

The handles of `CapturePixelsInternal` of `Agent/src/CaptureManager.cpp`: the device context of the
screen, the memory device context and the bitmap, each acquired in its stage and released by the
cleanup of the stage a call ends in. The bitmap is deleted while it is still selected into the
memory device context. -/

namespace BrowCast

/-- The GDI objects of the process: its handles, and which bitmap is selected into which device
context. -/
structure Gdi extends Ledger where
  /-- A device context with the bitmap that was selected into it. -/
  selected : List (ℕ × ℕ)
  selected_lt : ∀ p ∈ selected, p.2 < next

namespace Gdi

/-- `GetDC(NULL)`, `CreateCompatibleDC` or `CreateCompatibleBitmap`, when it succeeds: the handle is
the `next` of before. -/
def create (g : Gdi) : Gdi where
  toLedger := g.toLedger.acquire
  selected := g.selected
  selected_lt p hp := Nat.lt_succ_of_lt (g.selected_lt p hp)

/-- `SelectObject` of a bitmap, which takes the place of the one selected before. -/
def selectObject (g : Gdi) (success : Bool) (hdc : ℕ) (bitmap : {h : ℕ // h < g.next}) : Gdi where
  toLedger := g.toLedger
  selected :=
    if success then (hdc, bitmap.1) :: g.selected.filter (fun p => p.1 ≠ hdc) else g.selected
  selected_lt := by
    intro p hp
    split at hp
    · rcases List.mem_cons.mp hp with rfl | hp
      · exact bitmap.2
      · exact g.selected_lt p (List.mem_filter.mp hp).1
    · exact g.selected_lt p hp

/-- The bitmap is selected into a device context. -/
def IsSelected (g : Gdi) (h : ℕ) : Prop := ∃ p ∈ g.selected, p.2 = h

instance (g : Gdi) (h : ℕ) : Decidable (g.IsSelected h) :=
  inferInstanceAs (Decidable (∃ p ∈ g.selected, p.2 = h))

/-- `DeleteObject`, which frees nothing while the bitmap is selected into a device context. -/
def deleteObject (g : Gdi) (success : Bool) (h : ℕ) : Gdi where
  toLedger := g.toLedger.freeIf (success && !decide (g.IsSelected h)) h
  selected := g.selected
  selected_lt p hp := by
    rw [Ledger.next_freeIf]
    exact g.selected_lt p hp

/-- `DeleteDC`, after which nothing is selected into the device context. -/
def deleteDC (g : Gdi) (success : Bool) (hdc : ℕ) : Gdi where
  toLedger := g.toLedger.freeIf success hdc
  selected := if success then g.selected.filter (fun p => p.1 ≠ hdc) else g.selected
  selected_lt p hp := by
    rw [Ledger.next_freeIf]
    split at hp
    · exact g.selected_lt p (List.mem_filter.mp hp).1
    · exact g.selected_lt p hp

/-- `ReleaseDC`. -/
def releaseDC (g : Gdi) (success : Bool) (hdc : ℕ) : Gdi where
  toLedger := g.toLedger.freeIf success hdc
  selected := g.selected
  selected_lt p hp := by
    rw [Ledger.next_freeIf]
    exact g.selected_lt p hp

/-- No objects. -/
def empty : Gdi where
  toLedger := Ledger.empty
  selected := []
  selected_lt := by simp

end Gdi

/-- A call of `CapturePixelsInternal`: the window, and what every Win32 call in it answers. -/
structure CaptureCall extends Win32 where
  hwnd : Option Window
  /-- `SelectObject`, `DeleteObject` (where it can), `DeleteDC` and `ReleaseDC` succeed. -/
  selectObject : Bool
  deleteObject : Bool
  deleteDC : Bool
  releaseDC : Bool

namespace CaptureCall

/-- `CapturePixelsInternal`, with its handles. -/
def capture (call : CaptureCall) (g : Gdi) : Frame × Gdi :=
  if !call.getDC then ({}, g)
  else
    let hdcScreen := g.next
    let g := g.create
    match sourceArea call.metrics call.hwnd with
    | none => ({}, g.releaseDC call.releaseDC hdcScreen)
    | some area =>
        let frame : Frame := { width := area.width, height := area.height }
        if !call.createCompatibleDC then (frame, g.releaseDC call.releaseDC hdcScreen)
        else
          let hdcCompatible := g.next
          let g := g.create
          if !call.createCompatibleBitmap then
            (frame, (g.deleteDC call.deleteDC hdcCompatible).releaseDC call.releaseDC hdcScreen)
          else
            let hBitmap := g.next
            let g := g.create.selectObject call.selectObject hdcCompatible
              ⟨hBitmap, Nat.lt_succ_self _⟩
            -- what is drawn goes into the bitmap only if it is selected
            let bitmap :=
              if call.selectObject then drawn call.toWin32 call.hwnd area else call.fresh
            let frame := if !call.getDIBits then frame else { frame with
              pixels := getDIBits bitmap call.padding area.width.toNat
                ((rowPitch area.width).toNat * area.height.toNat) }
            let g := g.deleteObject call.deleteObject hBitmap
            let g := g.deleteDC call.deleteDC hdcCompatible
            (frame, g.releaseDC call.releaseDC hdcScreen)

/-- The frame is the captured one, when the bitmap could be selected. -/
theorem fst_capture {call : CaptureCall} (hselect : call.selectObject = true) (g : Gdi) :
    (call.capture g).1 = capturePixelsInternal call.toWin32 call.hwnd := by
  unfold capture capturePixelsInternal
  cases call.getDC with
  | false => rfl
  | true =>
      cases sourceArea call.metrics call.hwnd with
      | none => rfl
      | some area =>
          cases call.createCompatibleDC with
          | false => rfl
          | true =>
              cases call.createCompatibleBitmap with
              | false => rfl
              | true =>
                  cases call.getDIBits with
                  | false => rfl
                  | true => simp [hselect]

/-- For each handle the call acquires, in order, whether the release in its cleanup frees it. -/
def releases (call : CaptureCall) : List Bool :=
  if !call.getDC then []
  else if (sourceArea call.metrics call.hwnd).isNone || !call.createCompatibleDC then
    [call.releaseDC]
  else if !call.createCompatibleBitmap then [call.releaseDC, call.deleteDC]
  else [call.releaseDC, call.deleteDC, call.deleteObject && !call.selectObject]

/-- The bitmap is selected when it is deleted, if `SelectObject` succeeded. -/
theorem isSelected_bitmap (g : Gdi) (success : Bool) (hdc : ℕ) :
    (g.create.selectObject success hdc ⟨g.next, Nat.lt_succ_self _⟩).IsSelected g.next ↔
      success = true := by
  cases success with
  | true => exact iff_of_true ⟨(hdc, g.next), List.mem_cons_self, rfl⟩ rfl
  | false =>
      -- a fresh bitmap is in no device context
      refine iff_of_false ?_ Bool.false_ne_true
      rintro ⟨p, hp, heq⟩
      exact absurd (g.selected_lt p hp) (by omega)

/-- So the bitmap is freed exactly if it was not selected and `DeleteObject` succeeds. -/
theorem toLedger_deleteBitmap (g : Gdi) (hdc : ℕ) (select delete : Bool) :
    ((g.create.selectObject select hdc ⟨g.next, Nat.lt_succ_self _⟩).deleteObject delete
      g.next).toLedger = g.toLedger.acquire.freeIf (delete && !select) g.next := by
  have hselected := isSelected_bitmap g select hdc
  simp only [Gdi.deleteObject, hselected, Bool.decide_eq_true]
  rfl

/-- The handles of a call are acquired and released in a nested way. -/
theorem toLedger_capture (call : CaptureCall) (g : Gdi) :
    (call.capture g).2.toLedger = g.toLedger.nested call.releases := by
  unfold capture releases
  cases call.getDC with
  | false => rfl
  | true =>
      cases sourceArea call.metrics call.hwnd with
      | none => rfl
      | some area =>
          cases call.createCompatibleDC with
          | false => rfl
          | true =>
              cases call.createCompatibleBitmap with
              | false => rfl
              | true =>
                  have hbitmap := toLedger_deleteBitmap g.create.create g.create.next
                    call.selectObject call.deleteObject
                  exact congrArg (fun l => (l.freeIf call.deleteDC g.create.next).freeIf
                    call.releaseDC g.next) hbitmap

/-! ## Which calls leak -/

/-- Every DC and bitmap that the call acquires has been released exactly once when it returns. -/
def ReleasesAll (call : CaptureCall) (g : Gdi) : Prop :=
  ∀ h, g.next ≤ h → h < (call.capture g).2.next → (call.capture g).2.Settled h

/-- The releases of the stages the call reaches succeed, and a bitmap was not selected. -/
def ReleasesUnselected (call : CaptureCall) : Prop :=
  call.getDC → call.releaseDC ∧
    ((sourceArea call.metrics call.hwnd).isSome → call.createCompatibleDC → call.deleteDC ∧
      (call.createCompatibleBitmap → call.deleteObject ∧ ¬ call.selectObject))

/-- All handles are freed when the releases succeed and no bitmap was selected. -/
theorem forall_mem_releases_iff (call : CaptureCall) :
    (∀ c ∈ call.releases, c = true) ↔ call.ReleasesUnselected := by
  unfold releases ReleasesUnselected
  cases call.getDC with
  | false => simp
  | true =>
      cases sourceArea call.metrics call.hwnd with
      | none => simp
      | some area =>
          cases call.createCompatibleDC with
          | false => simp
          | true => cases call.createCompatibleBitmap <;> simp

/-- A call settles what it acquires exactly when the releases succeed and no bitmap was
selected. -/
theorem releasesAll_iff (call : CaptureCall) (g : Gdi) :
    call.ReleasesAll g ↔ call.ReleasesUnselected := by
  unfold ReleasesAll
  rw [toLedger_capture, Ledger.settled_nested_iff, forall_mem_releases_iff]

end CaptureCall

/-! ## Runs -/

/-- The capture loop of `main.cpp`: one call after the other, whatever the Win32 calls answer. -/
def captureLoop : GuardedMachine Gdi CaptureCall where
  start := Gdi.empty
  Enabled _ _ := True
  step g call := (call.capture g).2

/-- The number of live objects grows by those that are not released. -/
theorem length_live_captureLoop (g : Gdi) (calls : List CaptureCall) :
    (captureLoop.after g calls).live.length =
      g.live.length + (calls.map fun call => call.releases.count false).sum := by
  induction calls generalizing g with
  | nil => rfl
  | cons call calls ih =>
      have hstep : (captureLoop.step g call).live.length =
          g.live.length + call.releases.count false := by
        show (call.capture g).2.live.length = _
        rw [CaptureCall.toLedger_capture, Ledger.length_live_nested]
      rw [GuardedMachine.after_cons, ih, hstep, List.map_cons, List.sum_cons, Nat.add_assoc]

/-- **Which runs leak no handles.** Every call releases what it acquires, and the number of live
objects does not grow, exactly when in every call the releases succeed and no bitmap was selected
into the memory device context. -/
theorem captureLoop_releases_iff (g : Gdi) (calls : List CaptureCall) :
    (captureLoop.Steps (fun g call => call.ReleasesAll g) g calls ↔
        ∀ call ∈ calls, call.ReleasesUnselected) ∧
      ((captureLoop.after g calls).live.length ≤ g.live.length ↔
        ∀ call ∈ calls, call.ReleasesUnselected) := by
  constructor
  · simp only [CaptureCall.releasesAll_iff]
    exact captureLoop.steps_iff_forall_mem
  · have hzero (call : CaptureCall) :
        call.releases.count false = 0 ↔ call.ReleasesUnselected := by
      rw [← call.forall_mem_releases_iff, List.count_eq_zero]
      constructor
      · intro hnot c hc
        exact Bool.eq_true_of_not_eq_false fun hfalse => hnot (hfalse ▸ hc)
      · intro h hmem
        exact Bool.false_ne_true (h _ hmem)
    have hsum : (captureLoop.after g calls).live.length ≤ g.live.length ↔
        (calls.map fun call => call.releases.count false).sum = 0 := by
      rw [length_live_captureLoop]
      omega
    rw [hsum, List.sum_eq_zero_iff, List.forall_mem_map]
    exact forall₂_congr fun call _ => hzero call

/-- A capture of the whole screen in which every Win32 call succeeds. -/
def fullScreenCall : CaptureCall where
  metrics := ⟨1920, 1080, 0, 0, 1920, 1080⟩
  getDC := true
  createCompatibleDC := true
  createCompatibleBitmap := true
  getDIBits := true
  screen := fun _ _ _ => 0
  fresh := fun _ _ _ => 0
  padding := fun _ => 0
  hwnd := none
  selectObject := true
  deleteObject := true
  deleteDC := true
  releaseDC := true

/-- The bitmap of such a capture stays live: it was still selected when it was to be deleted. -/
theorem live_fullScreenCall :
    (captureLoop.after Gdi.empty [fullScreenCall]).live = [2] ∧
      (captureLoop.after Gdi.empty [fullScreenCall]).freed = [1, 0] ∧
      ¬ (captureLoop.Steps (fun g call => call.ReleasesAll g) Gdi.empty [fullScreenCall] ∧
        (captureLoop.after Gdi.empty [fullScreenCall]).live.length ≤ Gdi.empty.live.length) := by
  have hlive : (captureLoop.after Gdi.empty [fullScreenCall]).live = [2] := by decide
  refine ⟨hlive, by decide, fun h => ?_⟩
  rw [hlive] at h
  exact absurd h.2 (by decide)

end BrowCast
