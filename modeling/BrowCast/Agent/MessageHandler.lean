import BrowCast.Agent.JsonLibrary
import BrowCast.Server.State
import BrowCast.Runs.Effects

/-! # The agent's message handler

The handler `main` sets with `setOnMessageHandler` in `Agent/src/main.cpp`: a frame is parsed, its
fields are read with their defaults, and an input message is injected. Every exception is caught. -/

namespace BrowCast

/-! ## The handler -/

/-- What the agent runs on: the answers of `GetSystemMetrics` and of `MapVirtualKey`, and the JSON
library. -/
structure Host where
  metrics : SystemMetrics
  /-- `MapVirtualKey(vk, MAPVK_VK_TO_VSC)`. -/
  mapVirtualKey : WORD → WORD
  json : JsonLibrary

/-- The agent process, as far as the handler changes it. -/
structure Agent where
  selected_hwnd : Option Window := none
  /-- The lists of events handed to `SendInput`, oldest first. -/
  injected : List (List Input) := []
  /-- `exit(0)` was called. -/
  exited : Bool := false

/-- `SendInputEvents`. -/
def sendInputEvents (inputs : List Input) : EStateM CppError Agent Unit :=
  if inputs.isEmpty then pure ()
  else modify fun a => { a with injected := a.injected ++ [inputs] }

/-- `inputType.rfind(text, 0) == 0`. -/
def startsWith (text inputType : String) : Bool := text.toList.isPrefixOf inputType.toList

/-- The events an input message is turned into. -/
def inputEvents (host : Host) (json_msg : Json) : Except CppError (List Input) := do
  let inputType ← host.json.valueString json_msg "inputType" ""
  if startsWith "mouse" inputType || inputType = "click" || inputType = "contextmenu" ||
      inputType = "wheel" then
    let x ← host.json.valueInt json_msg "x" 0
    let y ← host.json.valueInt json_msg "y" 0
    let button ← host.json.valueInt json_msg "button" (-1)
    let deltaY ← host.json.valueInt json_msg "deltaY" 0
    return injectMouseInput host.metrics inputType x y button deltaY
  else if startsWith "key" inputType then
    let key ← host.json.valueString json_msg "key" ""
    let code ← host.json.valueString json_msg "code" ""
    let ctrlKey ← host.json.valueBool json_msg "ctrlKey" false
    let shiftKey ← host.json.valueBool json_msg "shiftKey" false
    let altKey ← host.json.valueBool json_msg "altKey" false
    let metaKey ← host.json.valueBool json_msg "metaKey" false
    injectKeyboardInput host.mapVirtualKey inputType key code ctrlKey shiftKey altKey metaKey
  else
    return []

/-- The `try` block of the handler. -/
def messageBody (host : Host) (message : Message) : EStateM CppError Agent Unit := do
  let json_msg ← orThrow (match message.json with
    | some v => .ok v
    | none => .error .parseError)
  let type ← orThrow (host.json.valueString json_msg "type" "")
  if type = "input" then
    sendInputEvents (← orThrow (inputEvents host json_msg))
  else if type = "close_connection" then
    modify fun a => { a with exited := true }
  else if type = "toggle_fullscreen" then
    modify fun a => { a with selected_hwnd := none }

/-- The message handler. -/
def onMessage (host : Host) (message : Message) : EStateM CppError Agent Unit :=
  swallow (messageBody host message)

/-! ## What a message injects -/

/-- The events a message is turned into; none when anything throws. -/
def Message.inputs (host : Host) (message : Message) : List Input :=
  match message.json with
  | none => []
  | some json_msg =>
      match host.json.valueString json_msg "type" "" with
      | .error _ => []
      | .ok type =>
          if type = "input" then
            match inputEvents host json_msg with
            | .ok inputs => inputs
            | .error _ => []
          else []

/-- Sending appends one batch, unless there is nothing to send. -/
theorem run_sendInputEvents (inputs : List Input) (a : Agent) :
    finalState ((sendInputEvents inputs).run a) =
      if inputs = [] then a else { a with injected := a.injected ++ [inputs] } := by
  unfold sendInputEvents
  cases inputs <;> rfl

/-- **What the handler injects.** The events of a message go out in one call of `SendInput`, after
everything that can throw. -/
theorem injected_onMessage (host : Host) (message : Message) (a : Agent) :
    (finalState ((onMessage host message).run a)).injected.flatten =
      a.injected.flatten ++ message.inputs host := by
  rw [onMessage, run_swallow, finalState_ok]
  unfold messageBody Message.inputs
  rcases message.json with _ | json_msg
  · simp [EStateM.run_bind]
  · rw [EStateM.run_bind, run_orThrow_ok]
    simp only
    cases htype : host.json.valueString json_msg "type" "" with
    | error e => simp [EStateM.run_bind]
    | ok type =>
        rw [EStateM.run_bind, run_orThrow_ok]
        simp only
        by_cases hinput : type = "input"
        · rw [if_pos hinput, if_pos hinput]
          cases inputEvents host json_msg with
          | error e => simp [EStateM.run_bind]
          | ok inputs =>
              simp only [EStateM.run_bind, run_orThrow_ok, run_sendInputEvents]
              cases inputs <;> simp
        · -- the other types change the agent, but inject nothing
          rw [if_neg hinput, if_neg hinput, List.append_nil]
          split
          · rfl
          · split <;> rfl

/-! ## A run of messages -/

/-- The agent receives a message; a process that has exited receives none. -/
def Agent.receive (host : Host) (a : Agent) (message : Message) : Agent :=
  if a.exited then a else finalState ((onMessage host message).run a)

/-- The message ends the process. -/
def Message.closes (json : JsonLibrary) (message : Message) : Bool :=
  match message.json with
  | some json_msg =>
      match json.valueString json_msg "type" "" with
      | .ok type => type = "close_connection"
      | .error _ => false
  | none => false

/-- A message of another type does not end the process. -/
theorem exited_onMessage (host : Host) {message : Message}
    (hcloses : message.closes host.json = false) (a : Agent) :
    (finalState ((onMessage host message).run a)).exited = a.exited := by
  rw [onMessage, run_swallow, finalState_ok]
  unfold messageBody
  unfold Message.closes at hcloses
  rcases hjson : message.json with _ | json_msg
  · simp [EStateM.run_bind]
  · rw [EStateM.run_bind, run_orThrow_ok]
    rw [hjson] at hcloses
    simp only at hcloses ⊢
    cases htype : host.json.valueString json_msg "type" "" with
    | error e => simp [EStateM.run_bind]
    | ok type =>
        rw [EStateM.run_bind, run_orThrow_ok]
        rw [htype] at hcloses
        simp only at hcloses ⊢
        by_cases hinput : type = "input"
        · rw [if_pos hinput]
          cases inputEvents host json_msg with
          | error e => simp [EStateM.run_bind]
          | ok inputs =>
              simp only [EStateM.run_bind, run_orThrow_ok, run_sendInputEvents]
              split <;> rfl
        · -- only a close message ends the agent
          have hclose : ¬ type = "close_connection" := by simpa using hcloses
          rw [if_neg hinput, if_neg hclose]
          split <;> rfl

/-- A message of a type that ends neither the process nor the sharing changes neither. -/
theorem keeps_onMessage (host : Host) {message : Message} {json_msg : Json} {type : String}
    (hjson : message.json = some json_msg)
    (htype : host.json.valueString json_msg "type" "" = .ok type)
    (hclose : type ≠ "close_connection") (htoggle : type ≠ "toggle_fullscreen") (a : Agent) :
    (finalState ((onMessage host message).run a)).exited = a.exited ∧
      (finalState ((onMessage host message).run a)).selected_hwnd = a.selected_hwnd := by
  rw [onMessage, run_swallow, finalState_ok]
  unfold messageBody
  simp only [hjson]
  rw [EStateM.run_bind, run_orThrow_ok]
  simp only
  rw [EStateM.run_bind, htype, run_orThrow_ok]
  simp only
  by_cases hinput : type = "input"
  · rw [if_pos hinput]
    cases inputEvents host json_msg with
    | error e => simp [EStateM.run_bind]
    | ok inputs =>
        simp only [EStateM.run_bind, run_orThrow_ok, run_sendInputEvents]
        split <;> exact ⟨rfl, rfl⟩
  · rw [if_neg hinput, if_neg hclose, if_neg htoggle]
    exact ⟨rfl, rfl⟩

/-- **A run injects what its messages are turned into**, in their order. -/
theorem injected_receive (host : Host) {messages : List Message}
    (hcloses : ∀ m ∈ messages, m.closes host.json = false) {a : Agent}
    (hrunning : a.exited = false) :
    (messages.foldl (Agent.receive host) a).injected.flatten =
      a.injected.flatten ++ messages.flatMap (Message.inputs host) := by
  induction messages generalizing a with
  | nil => simp
  | cons message messages ih =>
      have hstep : a.receive host message = finalState ((onMessage host message).run a) := by
        rw [Agent.receive, hrunning]
        rfl
      have hkeeps := exited_onMessage host (hcloses message List.mem_cons_self) a
      rw [List.foldl_cons, hstep, ih (fun m hm => hcloses m (List.mem_cons_of_mem _ hm))
        (hkeeps.trans hrunning), injected_onMessage, List.flatMap_cons, List.append_assoc]

end BrowCast
