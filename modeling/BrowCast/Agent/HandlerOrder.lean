import BrowCast.Agent.MessageHandler

/-! # Bad messages

The message handler again, from the bytes of a frame on and with its effects in the order of the
source: fields are read where they are read there, and events are handed to `SendInput` where that
is called there. All that can throw comes first: parsing, the fields, their conversions, and
`std::stoi` on the name of a key. -/

namespace BrowCast

/-! ## The handler, step by step -/

/-- The end of `InjectKeyboardInput`: an event for a key that could be mapped is sent. -/
def sendKey (inputType : String) (vkCode : WORD) (input : KeybdInput) :
    EStateM CppError Agent Unit :=
  if vkCode = 0 then pure ()
  else
    sendInputEvents [.keyboard (if inputType = "keyup" then
      { input with dwFlags := input.dwFlags ||| KEYEVENTF_KEYUP } else input)]

/-- `InjectKeyboardInput`: the key is mapped, which may throw, and then the event is sent. -/
def keyboardInjection (host : Host) (inputType key code : String)
    (_ctrlKey _shiftKey _altKey _metaKey : Bool) : EStateM CppError Agent Unit :=
  match browserCodeToVkMap.lookup code with
  | some vkCode =>
      sendKey inputType vkCode {
        wScan := host.mapVirtualKey vkCode
        dwFlags :=
          if isExtendedCode code then KEYEVENTF_SCANCODE ||| KEYEVENTF_EXTENDEDKEY
          else KEYEVENTF_SCANCODE }
  | none => do
      let vkCode ← orThrow (fallbackVk key)
      sendKey inputType vkCode {
        wVk := vkCode
        dwFlags := if isExtendedVk host.mapVirtualKey vkCode then KEYEVENTF_EXTENDEDKEY else 0 }

section Handler

variable (host : Host) (parse : List UInt8 → Except CppError Json) (message : List UInt8)

/-- The branch for messages of type `input`. -/
def inputBranch (json_msg : Json) : EStateM CppError Agent Unit := do
  let inputType ← orThrow (host.json.valueString json_msg "inputType" "")
  if startsWith "mouse" inputType || inputType = "click" || inputType = "contextmenu" ||
      inputType = "wheel" then
    let x ← orThrow (host.json.valueInt json_msg "x" 0)
    let y ← orThrow (host.json.valueInt json_msg "y" 0)
    let button ← orThrow (host.json.valueInt json_msg "button" (-1))
    let deltaY ← orThrow (host.json.valueInt json_msg "deltaY" 0)
    sendInputEvents (injectMouseInput host.metrics inputType x y button deltaY)
  else if startsWith "key" inputType then
    let key ← orThrow (host.json.valueString json_msg "key" "")
    let code ← orThrow (host.json.valueString json_msg "code" "")
    let ctrlKey ← orThrow (host.json.valueBool json_msg "ctrlKey" false)
    let shiftKey ← orThrow (host.json.valueBool json_msg "shiftKey" false)
    let altKey ← orThrow (host.json.valueBool json_msg "altKey" false)
    let metaKey ← orThrow (host.json.valueBool json_msg "metaKey" false)
    keyboardInjection host inputType key code ctrlKey shiftKey altKey metaKey
  else pure ()

/-- The `try` block of the handler, where `parse` is `nlohmann::json::parse`. -/
def handlerBody : EStateM CppError Agent Unit := do
  let json_msg ← orThrow (parse message)
  let type ← orThrow (host.json.valueString json_msg "type" "")
  if type = "input" then
    inputBranch host json_msg
  else if type = "close_connection" then
    modify fun a => { a with exited := true }
  else if type = "toggle_fullscreen" then
    modify fun a => { a with selected_hwnd := none }

/-- The message handler. -/
def handler : EStateM CppError Agent Unit := swallow (handlerBody host parse message)

end Handler

/-- Sending a key is sending the events it is turned into, which are none for a key without a code.
-/
theorem sendKey_eq (inputType : String) (vkCode : WORD) (input : KeybdInput) :
    sendKey inputType vkCode input =
      orThrow (match if vkCode = 0 then none else some input with
        | none => .ok []
        | some input => .ok [.keyboard (if inputType = "keyup" then
            { input with dwFlags := input.dwFlags ||| KEYEVENTF_KEYUP } else input)]) >>=
        sendInputEvents := by
  rw [sendKey]
  split <;> rfl

/-- Mapping a key and sending the event is sending what the key is turned into. -/
theorem keyboardInjection_eq (host : Host) (inputType key code : String)
    (ctrlKey shiftKey altKey metaKey : Bool) :
    keyboardInjection host inputType key code ctrlKey shiftKey altKey metaKey =
      orThrow (injectKeyboardInput host.mapVirtualKey inputType key code ctrlKey shiftKey altKey
        metaKey) >>= sendInputEvents := by
  rw [keyboardInjection, injectKeyboardInput, keyboardInput]
  cases browserCodeToVkMap.lookup code with
  | some vkCode => exact sendKey_eq ..
  | none =>
      cases fallbackVk key with
      | error e => rfl
      | ok vkCode => exact sendKey_eq ..

/-- Reading the fields one by one and sending is sending what the message is turned into. -/
theorem inputBranch_eq (host : Host) (json_msg : Json) :
    inputBranch host json_msg = orThrow (inputEvents host json_msg) >>= sendInputEvents := by
  rw [inputBranch, inputEvents, orThrow_bind, bind_assoc]
  refine congrArg _ (funext fun inputType => ?_)
  split
  · simp only [orThrow_bind, bind_assoc]
    rfl
  · split
    · simp only [orThrow_bind, bind_assoc, keyboardInjection_eq]
    · rfl

/-- The step-by-step handler does what the handler does that reads all fields at once. -/
theorem finalState_handler (host : Host) (parse : List UInt8 → Except CppError Json)
    (bytes : List UInt8) {message : Message} (hjson : message.json = (parse bytes).toOption)
    (a : Agent) :
    finalState ((handler host parse bytes).run a) =
      finalState ((onMessage host message).run a) := by
  rw [handler, onMessage, run_swallow, run_swallow, finalState_ok, finalState_ok, handlerBody,
    messageBody, hjson]
  cases parse bytes with
  | error e => rfl
  | ok json_msg =>
      simp only [inputBranch_eq]
      rfl

/-! ## Everything that throws comes first -/

/-- At most one batch of events more was injected. -/
def Agent.OneBatch (a a' : Agent) : Prop :=
  a'.injected = a.injected ∨ ∃ batch, a'.injected = a.injected ++ [batch]

/-- Injecting nothing adds at most one batch. -/
theorem Agent.OneBatch.refl (a : Agent) : a.OneBatch a := Or.inl rfl

/-- Sending throws nothing, and adds at most one batch. -/
theorem throwsFirst_sendInputEvents (inputs : List Input) :
    ThrowsFirst Agent.OneBatch (sendInputEvents inputs) := by
  rw [sendInputEvents]
  split
  · exact .pure Agent.OneBatch.refl ()
  · exact .modify fun a => Or.inr ⟨inputs, rfl⟩

/-- Mapping a key throws before the event is sent. -/
theorem throwsFirst_keyboardInjection (host : Host) (inputType key code : String)
    (ctrlKey shiftKey altKey metaKey : Bool) :
    ThrowsFirst Agent.OneBatch
      (keyboardInjection host inputType key code ctrlKey shiftKey altKey metaKey) := by
  have hsend (vkCode : WORD) (input : KeybdInput) :
      ThrowsFirst Agent.OneBatch (sendKey inputType vkCode input) :=
    .ite (.pure Agent.OneBatch.refl ()) (throwsFirst_sendInputEvents _)
  rw [keyboardInjection]
  split
  · exact hsend _ _
  · exact .orThrow_bind fun vkCode _ => hsend vkCode _

/-- The fields of an input message are read before anything is sent. -/
theorem throwsFirst_inputBranch (host : Host) (json_msg : Json) :
    ThrowsFirst Agent.OneBatch (inputBranch host json_msg) := by
  refine .orThrow_bind fun inputType _ => .ite ?_ (.ite ?_ (.pure Agent.OneBatch.refl ()))
  · refine .orThrow_bind fun x _ => .orThrow_bind fun y _ => .orThrow_bind fun button _ =>
      .orThrow_bind fun deltaY _ => ?_
    exact throwsFirst_sendInputEvents _
  · refine .orThrow_bind fun key _ => .orThrow_bind fun code _ => .orThrow_bind fun ctrlKey _ =>
      .orThrow_bind fun shiftKey _ => .orThrow_bind fun altKey _ =>
        .orThrow_bind fun metaKey _ => ?_
    exact throwsFirst_keyboardInjection ..

/-- The body of the handler changes nothing before it throws. -/
theorem throwsFirst_handlerBody (host : Host) (parse : List UInt8 → Except CppError Json)
    (message : List UInt8) : ThrowsFirst Agent.OneBatch (handlerBody host parse message) := by
  refine .orThrow_bind fun json_msg _ => .orThrow_bind fun type _ => .ite ?_ (.ite ?_ (.ite ?_ ?_))
  · exact throwsFirst_inputBranch host json_msg
  · exact .modify Agent.OneBatch.refl
  · exact .modify Agent.OneBatch.refl
  · exact .pure Agent.OneBatch.refl ()

/-! ## Bad messages -/

/-- Reading the message throws: the parser, the type, or a field of an input message or the name of
its key. -/
def ReadingThrows (host : Host) (parse : List UInt8 → Except CppError Json) (message : List UInt8) :
    Prop :=
  (∃ e, parse message = .error e) ∨
    ∃ json_msg, parse message = .ok json_msg ∧
      ((∃ e, host.json.valueString json_msg "type" "" = .error e) ∨
        host.json.valueString json_msg "type" "" = .ok "input" ∧
          ∃ e, inputEvents host json_msg = .error e)

/-- Sending always succeeds. -/
theorem exists_run_sendInputEvents (inputs : List Input) (a : Agent) :
    ∃ a', (sendInputEvents inputs).run a = .ok () a' := by
  rw [sendInputEvents]
  split <;> exact ⟨_, rfl⟩

/-- The body of the handler throws exactly when reading the message does. -/
theorem handlerBody_throws_iff (host : Host) (parse : List UInt8 → Except CppError Json)
    (message : List UInt8) (a : Agent) :
    (∃ e a', (handlerBody host parse message).run a = .error e a') ↔
      ReadingThrows host parse message := by
  rw [handlerBody, ReadingThrows]
  cases parse message with
  | error e => exact iff_of_true ⟨e, a, rfl⟩ (Or.inl ⟨e, rfl⟩)
  | ok json_msg =>
      rw [EStateM.run_bind, run_orThrow_ok]
      simp only [Except.ok.injEq, reduceCtorEq, exists_false, false_or, exists_eq_left']
      cases host.json.valueString json_msg "type" "" with
      | error e => exact iff_of_true ⟨e, a, rfl⟩ (Or.inl ⟨e, rfl⟩)
      | ok type =>
          rw [EStateM.run_bind, run_orThrow_ok]
          simp only [Except.ok.injEq, reduceCtorEq, exists_false, false_or]
          by_cases hinput : type = "input"
          · rw [if_pos hinput, inputBranch_eq, and_iff_right hinput]
            cases inputEvents host json_msg with
            | error e => exact iff_of_true ⟨e, a, rfl⟩ ⟨e, rfl⟩
            | ok inputs =>
                -- once the fields are read, sending does not throw
                obtain ⟨a', hsend⟩ := exists_run_sendInputEvents inputs a
                refine iff_of_false ?_ fun ⟨_, h⟩ => nomatch h
                rintro ⟨e, s, hrun⟩
                rw [EStateM.run_bind, run_orThrow_ok] at hrun
                exact nomatch hsend.symm.trans hrun
          · rw [if_neg hinput]
            refine iff_of_false ?_ fun h => hinput h.1
            rintro ⟨e, s, hrun⟩
            -- the other types of messages are not read any further
            split at hrun
            · exact nomatch hrun
            · split at hrun <;> exact nomatch hrun

/-- **A bad message injects nothing.** No exception leaves the handler, and it injects at most one
batch of events; when reading the message throws, the agent is left as it was. -/
theorem handler_reads_first (host : Host) (parse : List UInt8 → Except CppError Json)
    (message : List UInt8) (a : Agent) :
    (∃ a', (handler host parse message).run a = .ok () a' ∧ a.OneBatch a') ∧
      (ReadingThrows host parse message →
        ∃ e a', (handlerBody host parse message).run a = .error e a' ∧
          (handler host parse message).run a = .ok () a' ∧
          a'.injected = a.injected ∧ a'.selected_hwnd = a.selected_hwnd) := by
  have hfirst := throwsFirst_handlerBody host parse message
  constructor
  · obtain ⟨a', hrun, rfl | hbatch⟩ := hfirst.run_swallow a
    · exact ⟨a', hrun, .refl a'⟩
    · exact ⟨a', hrun, hbatch⟩
  · intro hthrows
    obtain ⟨e, a', hbody⟩ := (handlerBody_throws_iff host parse message a).mpr hthrows
    obtain rfl := hfirst.unchanged hbody
    refine ⟨e, a', hbody, ?_, rfl, rfl⟩
    rw [handler, run_swallow, hbody, finalState_error]

end BrowCast
