import BrowCast.Agent.CaptureManager
import Mathlib.Algebra.Order.Ring.Rat
import Mathlib.Algebra.Field.Rat

/-! # `SendInput`

The events the agent hands to `SendInput`, and what Windows makes of a mouse event: an event moves
the pointer only when `MOUSEEVENTF_MOVE` is set, absolute coordinates run from 0 to 65535 over the
primary monitor or over the whole virtual desktop, and a button acts where the pointer then is. -/

namespace BrowCast

/-- A 16-bit word. -/
abbrev WORD := UInt16

/-- A 32-bit word. -/
abbrev DWORD := UInt32

/-! ## Flags -/

/-- The event moves the pointer. -/
def MOUSEEVENTF_MOVE : DWORD := 0x0001
/-- The left button goes down. -/
def MOUSEEVENTF_LEFTDOWN : DWORD := 0x0002
/-- The left button comes up. -/
def MOUSEEVENTF_LEFTUP : DWORD := 0x0004
/-- The right button goes down. -/
def MOUSEEVENTF_RIGHTDOWN : DWORD := 0x0008
/-- The right button comes up. -/
def MOUSEEVENTF_RIGHTUP : DWORD := 0x0010
/-- The middle button goes down. -/
def MOUSEEVENTF_MIDDLEDOWN : DWORD := 0x0020
/-- The middle button comes up. -/
def MOUSEEVENTF_MIDDLEUP : DWORD := 0x0040
/-- The wheel turns, by `mouseData`. -/
def MOUSEEVENTF_WHEEL : DWORD := 0x0800
/-- Absolute coordinates run over the whole virtual desktop. -/
def MOUSEEVENTF_VIRTUALDESK : DWORD := 0x4000
/-- The coordinates are absolute. -/
def MOUSEEVENTF_ABSOLUTE : DWORD := 0x8000

/-- The scan code has the prefix `E0`. -/
def KEYEVENTF_EXTENDEDKEY : DWORD := 0x0001
/-- The key comes up. -/
def KEYEVENTF_KEYUP : DWORD := 0x0002
/-- The key is given by its scan code. -/
def KEYEVENTF_SCANCODE : DWORD := 0x0008

/-- The flag is set in the word. -/
def hasFlag (flags flag : DWORD) : Bool := flags &&& flag != 0

/-! ## Events -/

/-- A `MOUSEINPUT`. -/
structure MouseInput where
  dx : ℤ
  dy : ℤ
  mouseData : DWORD := 0
  dwFlags : DWORD := 0
  deriving DecidableEq

/-- A `KEYBDINPUT`. -/
structure KeybdInput where
  wVk : WORD := 0
  wScan : WORD := 0
  dwFlags : DWORD := 0
  deriving DecidableEq

/-- An `INPUT`. -/
inductive Input where
  | mouse (mi : MouseInput)
  | keyboard (ki : KeybdInput)
  deriving DecidableEq

/-! ## The mouse -/

/-- A desktop: the size of the primary monitor, whose top-left corner is the origin, and the virtual
desktop around it. -/
structure Desktop where
  pw : ℤ
  ph : ℤ
  vx : ℤ
  vy : ℤ
  vw : ℤ
  vh : ℤ
  primary : 0 < pw ∧ 0 < ph
  horizontal : vx ≤ 0 ∧ pw ≤ vx + vw
  vertical : vy ≤ 0 ∧ ph ≤ vy + vh

/-- A desktop of one monitor, at the origin. -/
def Desktop.single (pw ph : ℤ) (primary : 0 < pw ∧ 0 < ph) : Desktop where
  pw := pw
  ph := ph
  vx := 0
  vy := 0
  vw := pw
  vh := ph
  primary := primary
  horizontal := by omega
  vertical := by omega

/-- A second monitor of the same size to the right. -/
def Desktop.sideBySide (pw ph : ℤ) (primary : 0 < pw ∧ 0 < ph) : Desktop where
  pw := pw
  ph := ph
  vx := 0
  vy := 0
  vw := 2 * pw
  vh := ph
  primary := primary
  horizontal := by omega
  vertical := by omega

/-- A point of the desktop, in pixels. -/
abbrev Point := ℚ × ℚ

/-- A mouse button. -/
inductive Button where
  | left
  | middle
  | right
  deriving DecidableEq

/-- A button goes down or up. -/
structure Transition where
  button : Button
  down : Bool
  deriving DecidableEq

/-- The buttons a flag word moves, in the order of the flags. -/
def flagTransitions (dwFlags : DWORD) : List Transition :=
  [(MOUSEEVENTF_LEFTDOWN, ⟨.left, true⟩), (MOUSEEVENTF_LEFTUP, ⟨.left, false⟩),
    (MOUSEEVENTF_RIGHTDOWN, ⟨.right, true⟩), (MOUSEEVENTF_RIGHTUP, ⟨.right, false⟩),
    (MOUSEEVENTF_MIDDLEDOWN, ⟨.middle, true⟩), (MOUSEEVENTF_MIDDLEUP, ⟨.middle, false⟩)].filterMap
      fun entry => if hasFlag dwFlags entry.1 then some entry.2 else none

/-- The buttons an event moves. -/
def MouseInput.transitions (mi : MouseInput) : List Transition := flagTransitions mi.dwFlags

namespace Desktop

variable (desktop : Desktop)

/-- What `GetSystemMetrics` answers on the desktop. -/
def metrics : SystemMetrics where
  cxScreen := desktop.pw
  cyScreen := desktop.ph
  xVirtualScreen := desktop.vx
  yVirtualScreen := desktop.vy
  cxVirtualScreen := desktop.vw
  cyVirtualScreen := desktop.vh

/-- Where normalised coordinates of the virtual desktop lie: 0 to 65535 is mapped linearly onto all
of it. -/
def virtualPoint (dx dy : ℤ) : Point :=
  (desktop.vx + dx * desktop.vw / 65535, desktop.vy + dy * desktop.vh / 65535)

/-- Where normalised coordinates of the primary monitor lie. -/
def primaryPoint (dx dy : ℤ) : Point := (dx * desktop.pw / 65535, dy * desktop.ph / 65535)

/-- Where the pointer is after an event. -/
def movePointer (pointer : Point) (mi : MouseInput) : Point :=
  if hasFlag mi.dwFlags MOUSEEVENTF_MOVE then
    if hasFlag mi.dwFlags MOUSEEVENTF_ABSOLUTE then
      if hasFlag mi.dwFlags MOUSEEVENTF_VIRTUALDESK then desktop.virtualPoint mi.dx mi.dy
      else desktop.primaryPoint mi.dx mi.dy
    else (pointer.1 + mi.dx, pointer.2 + mi.dy)
  else pointer

/-- Where the pointer is after a list of events. -/
def pointerAfter (pointer : Point) : List Input → Point
  | [] => pointer
  | .mouse mi :: inputs => pointerAfter (desktop.movePointer pointer mi) inputs
  | .keyboard _ :: inputs => pointerAfter pointer inputs

/-- The buttons a list of events moves, each with the place of the pointer at that moment. -/
def transitionsAt (pointer : Point) : List Input → List (Transition × Point)
  | [] => []
  | .mouse mi :: inputs =>
      mi.transitions.map (·, desktop.movePointer pointer mi) ++
        transitionsAt (desktop.movePointer pointer mi) inputs
  | .keyboard _ :: inputs => transitionsAt pointer inputs

end Desktop

/-- The buttons a list of events moves. -/
def transitions : List Input → List Transition
  | [] => []
  | .mouse mi :: inputs => mi.transitions ++ transitions inputs
  | .keyboard _ :: inputs => transitions inputs

/-- The buttons a list of events moves, part by part. -/
theorem transitions_append (inputs rest : List Input) :
    transitions (inputs ++ rest) = transitions inputs ++ transitions rest := by
  induction inputs with
  | nil => rfl
  | cons input inputs ih =>
      cases input with
      | mouse mi => rw [List.cons_append, transitions, transitions, ih, List.append_assoc]
      | keyboard ki => exact ih

/-- Events of the keyboard move no button. -/
theorem transitions_of_keyboard {inputs : List Input}
    (hkeyboard : ∀ input ∈ inputs, ∃ ki, input = .keyboard ki) : transitions inputs = [] := by
  induction inputs with
  | nil => rfl
  | cons input inputs ih =>
      obtain ⟨ki, rfl⟩ := hkeyboard input List.mem_cons_self
      exact ih fun i hi => hkeyboard i (List.mem_cons_of_mem _ hi)

/-- Where a button acts does not change which button it is. -/
theorem Desktop.map_fst_transitionsAt (desktop : Desktop) (pointer : Point) (inputs : List Input) :
    (desktop.transitionsAt pointer inputs).map Prod.fst = transitions inputs := by
  induction inputs generalizing pointer with
  | nil => rfl
  | cons input inputs ih =>
      cases input with
      | mouse mi => simp [Desktop.transitionsAt, transitions, ih, Function.comp_def]
      | keyboard ki => exact ih pointer

end BrowCast
