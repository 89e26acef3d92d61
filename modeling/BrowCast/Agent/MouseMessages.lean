import BrowCast.Agent.MessageHandler

/-! # Mouse messages

What the handler reads off a mouse message, and what injecting it does: which buttons it moves, and
where it leaves the pointer. Only a mousemove moves the pointer; every button acts where the pointer
is. -/

namespace BrowCast

/-- The fields of a mouse message, as the handler reads them. -/
structure MouseEvent where
  inputType : String
  x : ℤ
  y : ℤ
  button : ℤ
  deltaY : ℤ
  deriving DecidableEq

/-- The mouse event a message stands for; none if it is another message, or if reading throws. -/
def Message.mouseEvent (json : JsonLibrary) (message : Message) : Option MouseEvent := do
  let json_msg ← message.json
  let type ← (json.valueString json_msg "type" "").toOption
  let inputType ← (json.valueString json_msg "inputType" "").toOption
  guard (type = "input" ∧ (startsWith "mouse" inputType || inputType = "click" ||
    inputType = "contextmenu" || inputType = "wheel"))
  let x ← (json.valueInt json_msg "x" 0).toOption
  let y ← (json.valueInt json_msg "y" 0).toOption
  let button ← (json.valueInt json_msg "button" (-1)).toOption
  let deltaY ← (json.valueInt json_msg "deltaY" 0).toOption
  return ⟨inputType, x, y, button, deltaY⟩

/-- The message a viewer sends for a mouse event at a pixel of the frame. -/
def mouseMessage (inputType : String) (x y button : ℕ) : Message where
  data := "\x7b\"type\":\"input\",\"inputType\":\"" ++ inputType ++ "\",\"x\":" ++ toString x ++
    ",\"y\":" ++ toString y ++ ",\"button\":" ++ toString button ++ "\x7d"
  json := some (.obj [("type", .str "input"), ("inputType", .str inputType),
    ("x", .num (.finite false x)), ("y", .num (.finite false y)),
    ("button", .num (.finite false button))])

/-- The button a number stands for; none for the X buttons. -/
def buttonOf (button : ℤ) : Option Button :=
  if button = 0 then some .left
  else if button = 1 then some .middle
  else if button = 2 then some .right
  else none

namespace MouseEvent

/-- The events a mouse message injects. -/
def inputs (metrics : SystemMetrics) (e : MouseEvent) : List Input :=
  injectMouseInput metrics e.inputType e.x e.y e.button e.deltaY

/-- The buttons a mouse message moves. -/
def transitions (e : MouseEvent) : List Transition :=
  if e.inputType = "mousedown" then ((buttonOf e.button).map (⟨·, true⟩)).toList
  else if e.inputType = "mouseup" then ((buttonOf e.button).map (⟨·, false⟩)).toList
  else if e.inputType = "click" then
    ((buttonOf e.button).map (⟨·, true⟩)).toList ++ ((buttonOf e.button).map (⟨·, false⟩)).toList
  else if e.inputType = "contextmenu" then [⟨.right, true⟩, ⟨.right, false⟩]
  else []

/-- The point of the desktop the coordinates of a message stand for. -/
def aim (desktop : Desktop) (e : MouseEvent) : Point :=
  desktop.virtualPoint (normalized e.x desktop.pw) (normalized e.y desktop.ph)

end MouseEvent

/-! ## Injecting a mouse event -/

/-- The event moves the pointer. -/
def Input.moves : Input → Bool
  | .mouse mi => hasFlag mi.dwFlags MOUSEEVENTF_MOVE
  | .keyboard _ => false

/-- Events that leave the pointer where it is act there. -/
theorem Desktop.transitionsAt_of_still (desktop : Desktop) (pointer : Point) {inputs : List Input}
    (hstill : ∀ input ∈ inputs, input.moves = false) :
    desktop.transitionsAt pointer inputs = (BrowCast.transitions inputs).map (·, pointer) ∧
      desktop.pointerAfter pointer inputs = pointer := by
  induction inputs with
  | nil => exact ⟨rfl, rfl⟩
  | cons input inputs ih =>
      have hrest := ih fun i hi => hstill i (List.mem_cons_of_mem _ hi)
      cases input with
      | keyboard ki => exact hrest
      | mouse mi =>
          have hmove : desktop.movePointer pointer mi = pointer := by
            rw [Desktop.movePointer]
            exact if_neg (by simpa [Input.moves] using hstill (.mouse mi) List.mem_cons_self)
          constructor
          · rw [Desktop.transitionsAt, hmove, hrest.1, BrowCast.transitions, List.map_append]
          · rw [Desktop.pointerAfter, hmove, hrest.2]

/-- The flag words of pressing and of releasing a button move that button, and not the pointer. -/
theorem flags_buttonDown (button : ℤ) :
    flagTransitions (MOUSEEVENTF_ABSOLUTE ||| MOUSEEVENTF_VIRTUALDESK ||| buttonDown button) =
        ((buttonOf button).map (⟨·, true⟩)).toList ∧
      hasFlag (MOUSEEVENTF_ABSOLUTE ||| MOUSEEVENTF_VIRTUALDESK ||| buttonDown button)
        MOUSEEVENTF_MOVE = false := by
  rw [buttonDown, buttonOf]
  split_ifs <;> decide

/-- The flag word of releasing a button moves that button, and not the pointer. -/
theorem flags_buttonUp (button : ℤ) :
    flagTransitions (MOUSEEVENTF_ABSOLUTE ||| MOUSEEVENTF_VIRTUALDESK ||| buttonUp button) =
        ((buttonOf button).map (⟨·, false⟩)).toList ∧
      hasFlag (MOUSEEVENTF_ABSOLUTE ||| MOUSEEVENTF_VIRTUALDESK ||| buttonUp button)
        MOUSEEVENTF_MOVE = false := by
  rw [buttonUp, buttonOf]
  split_ifs <;> decide

namespace MouseEvent

variable {metrics : SystemMetrics} (e : MouseEvent)

/-- **What a mouse message injects**: it moves its buttons, and only a mousemove moves the
pointer. -/
theorem inputs_spec (hscreen : ¬ (metrics.cxScreen = 0 ∨ metrics.cyScreen = 0)) :
    BrowCast.transitions (e.inputs metrics) = e.transitions ∧
      (e.inputType ≠ "mousemove" → ∀ input ∈ e.inputs metrics, input.moves = false) := by
  have hmoveFlags : flagTransitions (MOUSEEVENTF_ABSOLUTE ||| MOUSEEVENTF_VIRTUALDESK |||
      MOUSEEVENTF_MOVE) = [] := by decide
  have hmenuFlags : flagTransitions (MOUSEEVENTF_ABSOLUTE ||| MOUSEEVENTF_VIRTUALDESK |||
      MOUSEEVENTF_RIGHTDOWN) = [⟨.right, true⟩] ∧ flagTransitions (MOUSEEVENTF_RIGHTUP |||
      MOUSEEVENTF_ABSOLUTE ||| MOUSEEVENTF_VIRTUALDESK) = [⟨.right, false⟩] := by decide
  have hmenuStill : hasFlag (MOUSEEVENTF_ABSOLUTE ||| MOUSEEVENTF_VIRTUALDESK |||
      MOUSEEVENTF_RIGHTDOWN) MOUSEEVENTF_MOVE = false ∧ hasFlag (MOUSEEVENTF_RIGHTUP |||
      MOUSEEVENTF_ABSOLUTE ||| MOUSEEVENTF_VIRTUALDESK) MOUSEEVENTF_MOVE = false := by decide
  have hwheelFlags : flagTransitions (MOUSEEVENTF_ABSOLUTE ||| MOUSEEVENTF_VIRTUALDESK |||
      MOUSEEVENTF_WHEEL) = [] ∧ hasFlag (MOUSEEVENTF_ABSOLUTE ||| MOUSEEVENTF_VIRTUALDESK |||
      MOUSEEVENTF_WHEEL) MOUSEEVENTF_MOVE = false := by decide
  obtain ⟨inputType, x, y, button, deltaY⟩ := e
  obtain ⟨hdowns, hdownStill⟩ := flags_buttonDown button
  obtain ⟨hups, hupStill⟩ := flags_buttonUp button
  rw [inputs, injectMouseInput, if_neg hscreen, transitions]
  simp only
  -- the source's chain of tests, one type after the other
  by_cases hmove : inputType = "mousemove"
  · subst hmove
    simp [BrowCast.transitions, MouseInput.transitions, hmoveFlags]
  rw [if_neg hmove]
  by_cases hdown : inputType = "mousedown"
  · rw [if_pos hdown, if_pos hdown]
    simp [BrowCast.transitions, MouseInput.transitions, Input.moves, hdowns, hdownStill]
  rw [if_neg hdown, if_neg hdown]
  by_cases hup : inputType = "mouseup"
  · rw [if_pos hup, if_pos hup]
    simp [BrowCast.transitions, MouseInput.transitions, Input.moves, hups, hupStill]
  rw [if_neg hup, if_neg hup]
  by_cases hclick : inputType = "click"
  · rw [if_pos hclick, if_pos hclick]
    simp [BrowCast.transitions, MouseInput.transitions, Input.moves, hdowns, hdownStill, hups,
      hupStill]
  rw [if_neg hclick, if_neg hclick]
  by_cases hmenu : inputType = "contextmenu"
  · rw [if_pos hmenu, if_pos hmenu]
    simp [BrowCast.transitions, MouseInput.transitions, Input.moves, hmenuFlags, hmenuStill]
  rw [if_neg hmenu, if_neg hmenu]
  by_cases hwheel : inputType = "wheel"
  · rw [if_pos hwheel]
    simp [BrowCast.transitions, MouseInput.transitions, Input.moves, hwheelFlags]
  · rw [if_neg hwheel]
    simp [BrowCast.transitions]

end MouseEvent

/-! ## Handling a mouse message -/

/-- The handler reads back what a viewer has sent. -/
theorem mouseEvent_mouseMessage {json : JsonLibrary} (hjson : json.Documented) {inputType : String}
    (hmouse : (startsWith "mouse" inputType || inputType = "click" || inputType = "contextmenu" ||
      inputType = "wheel") = true)
    {x y button : ℕ} (hx : CInt.FitsInt x) (hy : CInt.FitsInt y) (hbutton : CInt.FitsInt button) :
    (mouseMessage inputType x y button).mouseEvent json = some ⟨inputType, x, y, button, 0⟩ := by
  have hobject : (mouseMessage inputType x y button).json = some (.obj [("type", .str "input"),
      ("inputType", .str inputType), ("x", .num (.finite false x)), ("y", .num (.finite false y)),
      ("button", .num (.finite false button))]) := rfl
  simp only [Message.mouseEvent, hobject, Option.bind_eq_bind, Option.bind_some]
  rw [hjson.string "" rfl, hjson.string "" rfl, hjson.natCast 0 rfl hx, hjson.natCast 0 rfl hy,
    hjson.natCast (-1) rfl hbutton, hjson.missing 0 rfl]
  simp only [Except.toOption, Option.bind_some]
  rw [guard, if_pos ⟨trivial, hmouse⟩]
  rfl

/-- Injecting a key gives keyboard events only. -/
theorem keyboard_of_injectKeyboardInput {mapVirtualKey : WORD → WORD}
    {inputType key code : String} {ctrlKey shiftKey altKey metaKey : Bool} {inputs : List Input}
    (hok : injectKeyboardInput mapVirtualKey inputType key code ctrlKey shiftKey altKey metaKey =
      .ok inputs) {input : Input} (hinput : input ∈ inputs) : ∃ ki, input = .keyboard ki := by
  unfold injectKeyboardInput at hok
  cases hkey : keyboardInput mapVirtualKey key code with
  | error e => simp [hkey, bind, Except.bind] at hok
  | ok found =>
      cases found with
      | none =>
          simp only [hkey, bind, Except.bind, pure, Except.pure, Except.ok.injEq] at hok
          subst hok
          exact absurd hinput List.not_mem_nil
      | some ki =>
          simp only [hkey, bind, Except.bind, pure, Except.pure, Except.ok.injEq] at hok
          subst hok
          exact ⟨_, List.mem_singleton.mp hinput⟩

/-- The handler injects the mouse event of a message; a message without one injects keys or
nothing. -/
theorem Message.inputs_eq (host : Host) (message : Message) :
    match message.mouseEvent host.json with
    | some e => message.inputs host = e.inputs host.metrics
    | none => ∀ input ∈ message.inputs host, ∃ ki, input = .keyboard ki := by
  unfold Message.mouseEvent Message.inputs
  rcases message.json with _ | json_msg
  · simp
  simp only [Option.bind_eq_bind, Option.bind_some]
  cases host.json.valueString json_msg "type" "" with
  | error e => simp [Except.toOption]
  | ok type =>
      unfold inputEvents
      cases host.json.valueString json_msg "inputType" "" with
      | error e => simp [Except.toOption, bind, Except.bind]
      | ok inputType =>
          simp only [Except.toOption, Option.bind_some, bind, Except.bind]
          by_cases htype : type = "input"
          · rw [if_pos htype]
            by_cases hmouse : (startsWith "mouse" inputType || inputType = "click" ||
              inputType = "contextmenu" || inputType = "wheel") = true
            · -- a mouse message: all of its fields are read before anything is injected
              rw [if_pos hmouse, guard, if_pos ⟨htype, hmouse⟩]
              cases host.json.valueInt json_msg "x" 0 with
              | error e => simp
              | ok x =>
              cases host.json.valueInt json_msg "y" 0 with
              | error e => simp
              | ok y =>
              cases host.json.valueInt json_msg "button" (-1) with
              | error e => simp
              | ok button =>
              cases host.json.valueInt json_msg "deltaY" 0 with
              | error e => simp
              | ok deltaY => rfl
            · -- a key message, or one of another type
              rw [if_neg hmouse, guard, if_neg fun h => hmouse h.2]
              intro input hinput
              split at hinput
              case h_2 => exact absurd hinput List.not_mem_nil
              case h_1 inputs hok =>
              split at hok
              · repeat' split at hok
                all_goals first | exact keyboard_of_injectKeyboardInput hok hinput | cases hok
              · cases hok
                exact absurd hinput List.not_mem_nil
          · rw [if_neg htype, guard, if_neg fun h => htype h.1]
            intro input hinput
            exact absurd hinput List.not_mem_nil

end BrowCast
