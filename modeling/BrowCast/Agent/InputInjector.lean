import BrowCast.Agent.SendInput
import BrowCast.CPlusPlus.Double

/-! # Injecting input

`InjectMouseInput` and `InjectKeyboardInput` of `Agent/src/InputInjector.cpp`. Both return the
events they hand to `SendInput` in one call, the empty list when there is no call. -/

namespace BrowCast

/-- The exceptions of the agent's code. -/
inductive CppError where
  /-- `nlohmann::json::parse_error`. -/
  | parseError
  /-- `nlohmann::json::type_error`. -/
  | typeError
  /-- `nlohmann::json::out_of_range`, and `std::out_of_range` of `std::stoi`. -/
  | outOfRange
  deriving DecidableEq

/-! ## The mouse -/

/-- A pixel coordinate in the absolute range: `(x * 65535) / screenWidth`. -/
def normalized (x screenWidth : ℤ) : ℤ := CInt.div (CInt.mul x 65535) screenWidth

/-- The flag for pressing a button; none for the X buttons. -/
def buttonDown (button : ℤ) : DWORD :=
  if button = 0 then MOUSEEVENTF_LEFTDOWN
  else if button = 1 then MOUSEEVENTF_MIDDLEDOWN
  else if button = 2 then MOUSEEVENTF_RIGHTDOWN
  else 0

/-- The flag for releasing a button. -/
def buttonUp (button : ℤ) : DWORD :=
  if button = 0 then MOUSEEVENTF_LEFTUP
  else if button = 1 then MOUSEEVENTF_MIDDLEUP
  else if button = 2 then MOUSEEVENTF_RIGHTUP
  else 0

/-- `(DWORD)q` for a `double`: truncated, and then the low 32 bits. Out of the range of a `DWORD`
the conversion is undefined. -/
def doubleToDWORD (q : ℚ) : DWORD := UInt32.ofInt (truncated q)

/-- `(deltaY / 100.0) * WHEEL_DELTA` in doubles, with `WHEEL_DELTA` 120. -/
def scaledDelta (deltaY : ℤ) : ℚ := toDouble (toDouble (deltaY / 100) * 120)

/-- `mouseData` of a wheel event. (`std::abs` of the least `int` is undefined; its double is
converted like those of the other negative numbers.) -/
def wheelData (deltaY : ℤ) : DWORD :=
  if 0 < deltaY.natAbs then doubleToDWORD (scaledDelta deltaY) else UInt32.ofInt deltaY

/-- Doubles fall short of the exact 246. -/
example : wheelData 205 = 245 := by decide +kernel

/-- `InjectMouseInput`. -/
def injectMouseInput (metrics : SystemMetrics) (inputType : String) (x y button deltaY : ℤ) :
    List Input :=
  if metrics.cxScreen = 0 ∨ metrics.cyScreen = 0 then []
  else
    let input : MouseInput := {
      dx := normalized x metrics.cxScreen
      dy := normalized y metrics.cyScreen
      dwFlags := MOUSEEVENTF_ABSOLUTE ||| MOUSEEVENTF_VIRTUALDESK }
    if inputType = "mousemove" then
      [.mouse { input with dwFlags := input.dwFlags ||| MOUSEEVENTF_MOVE }]
    else if inputType = "mousedown" then
      [.mouse { input with dwFlags := input.dwFlags ||| buttonDown button }]
    else if inputType = "mouseup" then
      [.mouse { input with dwFlags := input.dwFlags ||| buttonUp button }]
    else if inputType = "click" then
      [.mouse { input with dwFlags := input.dwFlags ||| buttonDown button },
        .mouse { input with dwFlags := input.dwFlags ||| buttonUp button }]
    else if inputType = "contextmenu" then
      [.mouse { input with dwFlags := input.dwFlags ||| MOUSEEVENTF_RIGHTDOWN },
        .mouse { input with
          dwFlags := MOUSEEVENTF_RIGHTUP ||| MOUSEEVENTF_ABSOLUTE ||| MOUSEEVENTF_VIRTUALDESK }]
    else if inputType = "wheel" then
      [.mouse { input with
        dwFlags := input.dwFlags ||| MOUSEEVENTF_WHEEL, mouseData := wheelData deltaY }]
    else []

/-- A desktop has a screen, so nothing is dropped. -/
theorem Desktop.screen_ne_zero (desktop : Desktop) :
    ¬ (desktop.metrics.cxScreen = 0 ∨ desktop.metrics.cyScreen = 0) := by
  have hsize := desktop.primary
  simp only [Desktop.metrics]
  omega

/-- Where a mousemove puts the pointer. -/
theorem Desktop.pointerAfter_mousemove (desktop : Desktop) (pointer : Point)
    (x y button deltaY : ℤ) :
    desktop.pointerAfter pointer (injectMouseInput desktop.metrics "mousemove" x y button deltaY) =
      desktop.virtualPoint (normalized x desktop.pw) (normalized y desktop.ph) := by
  have hmove : hasFlag (MOUSEEVENTF_ABSOLUTE ||| MOUSEEVENTF_VIRTUALDESK ||| MOUSEEVENTF_MOVE)
      MOUSEEVENTF_MOVE = true := by decide
  have habsolute : hasFlag (MOUSEEVENTF_ABSOLUTE ||| MOUSEEVENTF_VIRTUALDESK ||| MOUSEEVENTF_MOVE)
      MOUSEEVENTF_ABSOLUTE = true := by decide
  have hdesk : hasFlag (MOUSEEVENTF_ABSOLUTE ||| MOUSEEVENTF_VIRTUALDESK ||| MOUSEEVENTF_MOVE)
      MOUSEEVENTF_VIRTUALDESK = true := by decide
  rw [injectMouseInput, if_neg desktop.screen_ne_zero, if_pos rfl]
  simp only [Desktop.pointerAfter, Desktop.movePointer, hmove, habsolute, hdesk, if_true]
  rfl

/-! ## The keyboard -/

/-- The backspace key. -/
def VK_BACK : WORD := 0x08
/-- The tabulator key. -/
def VK_TAB : WORD := 0x09
/-- The enter key. -/
def VK_RETURN : WORD := 0x0D
/-- Either shift key. -/
def VK_SHIFT : WORD := 0x10
/-- Either control key. -/
def VK_CONTROL : WORD := 0x11
/-- Either alt key. -/
def VK_MENU : WORD := 0x12
/-- The pause key. -/
def VK_PAUSE : WORD := 0x13
/-- The caps lock key. -/
def VK_CAPITAL : WORD := 0x14
/-- The escape key. -/
def VK_ESCAPE : WORD := 0x1B
/-- The space bar. -/
def VK_SPACE : WORD := 0x20
/-- The page up key. -/
def VK_PRIOR : WORD := 0x21
/-- The page down key. -/
def VK_NEXT : WORD := 0x22
/-- The end key. -/
def VK_END : WORD := 0x23
/-- The home key. -/
def VK_HOME : WORD := 0x24
/-- The left arrow key. -/
def VK_LEFT : WORD := 0x25
/-- The up arrow key. -/
def VK_UP : WORD := 0x26
/-- The right arrow key. -/
def VK_RIGHT : WORD := 0x27
/-- The down arrow key. -/
def VK_DOWN : WORD := 0x28
/-- The print screen key. -/
def VK_SNAPSHOT : WORD := 0x2C
/-- The insert key. -/
def VK_INSERT : WORD := 0x2D
/-- The delete key. -/
def VK_DELETE : WORD := 0x2E
/-- The left Windows key. -/
def VK_LWIN : WORD := 0x5B
/-- The right Windows key. -/
def VK_RWIN : WORD := 0x5C
/-- The zero of the number pad; the other digits follow. -/
def VK_NUMPAD0 : WORD := 0x60
/-- The multiplication key of the number pad. -/
def VK_MULTIPLY : WORD := 0x6A
/-- The addition key of the number pad. -/
def VK_ADD : WORD := 0x6B
/-- The subtraction key of the number pad. -/
def VK_SUBTRACT : WORD := 0x6D
/-- The decimal point of the number pad. -/
def VK_DECIMAL : WORD := 0x6E
/-- The division key of the number pad. -/
def VK_DIVIDE : WORD := 0x6F
/-- The first function key; the others follow. -/
def VK_F1 : WORD := 0x70
/-- The num lock key. -/
def VK_NUMLOCK : WORD := 0x90
/-- The scroll lock key. -/
def VK_SCROLL : WORD := 0x91
/-- The left shift key. -/
def VK_LSHIFT : WORD := 0xA0
/-- The right shift key. -/
def VK_RSHIFT : WORD := 0xA1
/-- The left control key. -/
def VK_LCONTROL : WORD := 0xA2
/-- The right control key. -/
def VK_RCONTROL : WORD := 0xA3
/-- The left alt key. -/
def VK_LMENU : WORD := 0xA4
/-- The right alt key. -/
def VK_RMENU : WORD := 0xA5
/-- The semicolon key. -/
def VK_OEM_1 : WORD := 0xBA
/-- The key of the equals sign. -/
def VK_OEM_PLUS : WORD := 0xBB
/-- The comma key. -/
def VK_OEM_COMMA : WORD := 0xBC
/-- The minus key. -/
def VK_OEM_MINUS : WORD := 0xBD
/-- The period key. -/
def VK_OEM_PERIOD : WORD := 0xBE
/-- The slash key. -/
def VK_OEM_2 : WORD := 0xBF
/-- The backquote key. -/
def VK_OEM_3 : WORD := 0xC0
/-- The left bracket key. -/
def VK_OEM_4 : WORD := 0xDB
/-- The backslash key. -/
def VK_OEM_5 : WORD := 0xDC
/-- The right bracket key. -/
def VK_OEM_6 : WORD := 0xDD
/-- The quote key. -/
def VK_OEM_7 : WORD := 0xDE

/-- `browserCodeToVkMap` after `InitializeKeyMap`. -/
def browserCodeToVkMap : List (String × WORD) :=
  (List.range 26).map (fun i => ("Key".push (Char.ofNat (0x41 + i)), 0x41 + .ofNat i)) ++
  (List.range 10).map (fun i => ("Digit".push (Char.ofNat (0x30 + i)), 0x30 + .ofNat i)) ++
  (List.range 24).map (fun i => ("F" ++ toString (i + 1), VK_F1 + .ofNat i)) ++
  (List.range 10).map (fun i => ("Numpad" ++ toString i, VK_NUMPAD0 + .ofNat i)) ++
  [("NumpadMultiply", VK_MULTIPLY), ("NumpadAdd", VK_ADD), ("NumpadSubtract", VK_SUBTRACT),
    ("NumpadDecimal", VK_DECIMAL), ("NumpadDivide", VK_DIVIDE), ("NumpadEnter", VK_RETURN),
    ("Backspace", VK_BACK), ("Tab", VK_TAB), ("Enter", VK_RETURN), ("ShiftLeft", VK_LSHIFT),
    ("ShiftRight", VK_RSHIFT), ("ControlLeft", VK_LCONTROL), ("ControlRight", VK_RCONTROL),
    ("AltLeft", VK_LMENU), ("AltRight", VK_RMENU), ("MetaLeft", VK_LWIN), ("MetaRight", VK_RWIN),
    ("Escape", VK_ESCAPE), ("Space", VK_SPACE), ("PageUp", VK_PRIOR), ("PageDown", VK_NEXT),
    ("End", VK_END), ("Home", VK_HOME), ("ArrowLeft", VK_LEFT), ("ArrowUp", VK_UP),
    ("ArrowRight", VK_RIGHT), ("ArrowDown", VK_DOWN), ("Insert", VK_INSERT), ("Delete", VK_DELETE),
    ("CapsLock", VK_CAPITAL), ("NumLock", VK_NUMLOCK), ("ScrollLock", VK_SCROLL),
    ("Pause", VK_PAUSE), ("PrintScreen", VK_SNAPSHOT), ("Semicolon", VK_OEM_1),
    ("Equal", VK_OEM_PLUS), ("Comma", VK_OEM_COMMA), ("Minus", VK_OEM_MINUS),
    ("Period", VK_OEM_PERIOD), ("Slash", VK_OEM_2), ("Backquote", VK_OEM_3),
    ("BracketLeft", VK_OEM_4), ("Backslash", VK_OEM_5), ("BracketRight", VK_OEM_6),
    ("Quote", VK_OEM_7)]

/-- `code.find(text) != std::string::npos`. -/
def containsText (text code : String) : Bool := code.toList.tails.any text.toList.isPrefixOf

/-- The test for the extended bit of a key whose code is in the map. -/
def isExtendedCode (code : String) : Bool :=
  code = "NumpadEnter" || containsText "Right" code ||
  code = "ControlRight" || code = "AltRight" || code = "Insert" ||
  code = "Delete" || code = "Home" || code = "End" || code = "PageUp" ||
  code = "PageDown" || code = "ArrowUp" || code = "ArrowDown" ||
  code = "ArrowLeft" || code = "ArrowRight" || code = "NumpadDivide" || code = "PrintScreen"

/-- The keys the fallback knows by name, in the order of its tests up to the function keys. -/
def namedKeys : List (String × WORD) :=
  [("Backspace", VK_BACK), ("Tab", VK_TAB), ("Enter", VK_RETURN), ("Shift", VK_SHIFT),
    ("Control", VK_CONTROL), ("Alt", VK_MENU), ("Pause", VK_PAUSE), ("CapsLock", VK_CAPITAL),
    ("Escape", VK_ESCAPE), ("Space", VK_SPACE), ("PageUp", VK_PRIOR), ("PageDown", VK_NEXT),
    ("End", VK_END), ("Home", VK_HOME), ("ArrowLeft", VK_LEFT), ("ArrowUp", VK_UP),
    ("ArrowRight", VK_RIGHT), ("ArrowDown", VK_DOWN), ("PrintScreen", VK_SNAPSHOT),
    ("Insert", VK_INSERT), ("Delete", VK_DELETE), ("Meta", VK_LWIN)]

/-- `std::stoi` of a text that starts with a digit. -/
def stoi (digits : List Char) : Except CppError ℕ :=
  let value := (digits.takeWhile Char.isDigit).foldl (fun n d => 10 * n + (d.toNat - '0'.toNat)) 0
  if value ≤ 2147483647 then .ok value else .error .outOfRange

/-- The virtual key the fallback finds for a `key` string, 0 when it finds none. -/
def fallbackVk (key : String) : Except CppError WORD :=
  match key.toList with
  | [c] =>
      -- one byte: letters go by their upper case, digits by themselves
      if c.isAlpha then .ok (.ofNat c.toUpper.toNat)
      else if c.isDigit then .ok (.ofNat c.toNat)
      else .ok 0
  | cs =>
      match namedKeys.lookup key with
      | some vk => .ok vk
      | none =>
          match cs with
          | 'F' :: d :: rest =>
              if d.isDigit then do
                let fNum ← stoi (d :: rest)
                return if 1 ≤ fNum ∧ fNum ≤ 24 then VK_F1 + .ofNat (fNum - 1) else 0
              else .ok 0
          | _ =>
              if key = "NumLock" then .ok VK_NUMLOCK
              else if key = "ScrollLock" then .ok VK_SCROLL
              else .ok 0

/-- The test for the extended bit in the fallback. `mapVirtualKey` is `MapVirtualKey` with
`MAPVK_VK_TO_VSC`; no scan code has been set at this point. -/
def isExtendedVk (mapVirtualKey : WORD → WORD) (vkCode : WORD) : Bool :=
  vkCode = VK_INSERT || vkCode = VK_DELETE || vkCode = VK_HOME || vkCode = VK_END ||
  vkCode = VK_PRIOR || vkCode = VK_NEXT || vkCode = VK_UP || vkCode = VK_DOWN ||
  vkCode = VK_LEFT || vkCode = VK_RIGHT || vkCode = VK_NUMLOCK || vkCode = VK_DIVIDE ||
  vkCode = VK_RETURN && 0 = mapVirtualKey VK_RETURN

/-- The event for a key going down, before `KEYEVENTF_KEYUP` is added; `none` when the key cannot be
mapped. -/
def keyboardInput (mapVirtualKey : WORD → WORD) (key code : String) :
    Except CppError (Option KeybdInput) :=
  match browserCodeToVkMap.lookup code with
  | some vkCode =>
      .ok (if vkCode = 0 then none else some {
        wScan := mapVirtualKey vkCode
        dwFlags :=
          if isExtendedCode code then KEYEVENTF_SCANCODE ||| KEYEVENTF_EXTENDEDKEY
          else KEYEVENTF_SCANCODE })
  | none => do
      let vkCode ← fallbackVk key
      return if vkCode = 0 then none else some {
        wVk := vkCode
        dwFlags := if isExtendedVk mapVirtualKey vkCode then KEYEVENTF_EXTENDEDKEY else 0 }

/-- `InjectKeyboardInput`; the modifier states are passed and not looked at. -/
def injectKeyboardInput (mapVirtualKey : WORD → WORD) (inputType key code : String)
    (_ctrlKey _shiftKey _altKey _metaKey : Bool) : Except CppError (List Input) := do
  match ← keyboardInput mapVirtualKey key code with
  | none => return []
  | some input =>
      return [.keyboard (if inputType = "keyup" then
        { input with dwFlags := input.dwFlags ||| KEYEVENTF_KEYUP } else input)]

example : browserCodeToVkMap.lookup "F12" = some 0x7B ∧ fallbackVk "q" = .ok 0x51 := by
  decide +kernel

end BrowCast
