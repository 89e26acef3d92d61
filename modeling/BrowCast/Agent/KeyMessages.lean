import BrowCast.Agent.MessageHandler
import BrowCast.Runs.Held

/-! # Key messages

What a viewer sends for a key going down or up, what the agent makes of it, and which keys are then
held. A key is held on the agent as a scan code or as a virtual key, with its extended bit. -/

namespace BrowCast

/-! ## What a keyboard event presses -/

/-- What a keyboard event presses or releases. -/
inductive KeyTarget where
  | scan (code : WORD) (extended : Bool)
  | virtual (vk : WORD) (extended : Bool)
  deriving DecidableEq

/-- The target of a keyboard event. -/
def KeybdInput.target (ki : KeybdInput) : KeyTarget :=
  if hasFlag ki.dwFlags KEYEVENTF_SCANCODE then
    .scan ki.wScan (hasFlag ki.dwFlags KEYEVENTF_EXTENDEDKEY)
  else .virtual ki.wVk (hasFlag ki.dwFlags KEYEVENTF_EXTENDEDKEY)

/-- The key an event presses (`true`) or releases. -/
def Input.keyTransition : Input → Option (KeyTarget × Bool)
  | .keyboard ki => some (ki.target, !hasFlag ki.dwFlags KEYEVENTF_KEYUP)
  | .mouse _ => none

/-! ## What a viewer sends -/

/-- A `keydown` or `keyup` event of a physical key. -/
structure KeyEvent (K : Type*) where
  physical : K
  key : String
  down : Bool
  keyCode : ℕ := 0
  ctrlKey : Bool := false
  shiftKey : Bool := false
  altKey : Bool := false
  metaKey : Bool := false

/-- `JSON.stringify` of a string. -/
def quoted (s : String) : String := "\"" ++ String.join (s.toList.map escaped) ++ "\""
where
  /-- A character inside a quoted string. -/
  escaped (c : Char) : String :=
    if c = '"' then "\\\""
    else if c = '\\' then "\\\\"
    else if c = '\n' then "\\n"
    else if c = '\r' then "\\r"
    else if c = '\t' then "\\t"
    else if c.toNat = 8 then "\\b"
    else if c.toNat = 12 then "\\f"
    else if c.toNat < 16 then "\\u000" ++ String.ofList (Nat.toDigits 16 c.toNat)
    else if c.toNat < 32 then "\\u00" ++ String.ofList (Nat.toDigits 16 c.toNat)
    else String.singleton c

namespace KeyEvent

variable {K : Type*} (code : K → String)

/-- The type of the event. -/
def inputType (e : KeyEvent K) : String := if e.down then "keydown" else "keyup"

/-- The members of the object a viewer sends for the event; `code` is the code string of each
physical key. -/
def members (e : KeyEvent K) : List (String × Json) :=
  [("type", .str "input"), ("inputType", .str e.inputType), ("key", .str e.key),
    ("code", .str (code e.physical)), ("keyCode", .num (.finite false e.keyCode)),
    ("ctrlKey", .bool e.ctrlKey), ("shiftKey", .bool e.shiftKey), ("altKey", .bool e.altKey),
    ("metaKey", .bool e.metaKey)]

/-- The message a viewer sends for the event. -/
def message (e : KeyEvent K) : Message where
  data := "\x7b\"type\":\"input\",\"inputType\":" ++ quoted e.inputType ++ ",\"key\":" ++
    quoted e.key ++ ",\"code\":" ++ quoted (code e.physical) ++ ",\"keyCode\":" ++
    toString e.keyCode ++ ",\"ctrlKey\":" ++ toString e.ctrlKey ++ ",\"shiftKey\":" ++
    toString e.shiftKey ++ ",\"altKey\":" ++ toString e.altKey ++ ",\"metaKey\":" ++
    toString e.metaKey ++ "\x7d"
  json := some (.obj (e.members code))

/-- The keys held at the viewer after a sequence of events. -/
def held (events : List (KeyEvent K)) : Set K :=
  heldAfter ∅ (events.map fun e => (e.physical, e.down))

/-- The keys held on the agent after it has handled the messages of a sequence of events. -/
def heldOnAgent (host : Host) (events : List (KeyEvent K)) : Set KeyTarget :=
  heldAfter ∅
    (((events.map (message code)).foldl (Agent.receive host) {}).injected.flatten.filterMap
      Input.keyTransition)

end KeyEvent

/-- What a key with these `key` and `code` strings is on the agent; none when it cannot be mapped,
or when mapping it throws. -/
def keyTarget (mapVirtualKey : WORD → WORD) (key code : String) : Option KeyTarget :=
  match keyboardInput mapVirtualKey key code with
  | .ok (some ki) => some ki.target
  | _ => none

/-! ## Handling a key message -/

section Handling

variable {K : Type*} {code : K → String} {host : Host}

/-- The flag words a key going down can have. -/
theorem dwFlags_mem {mapVirtualKey : WORD → WORD} {key code : String} {ki : KeybdInput}
    (hki : keyboardInput mapVirtualKey key code = .ok (some ki)) :
    ki.dwFlags ∈ [KEYEVENTF_SCANCODE ||| KEYEVENTF_EXTENDEDKEY, KEYEVENTF_SCANCODE,
      KEYEVENTF_EXTENDEDKEY, 0] := by
  unfold keyboardInput at hki
  -- the map gives scan codes, the name of a key a virtual key
  cases hlookup : browserCodeToVkMap.lookup code with
  | some vkCode =>
      rw [hlookup] at hki
      simp only [Except.ok.injEq] at hki
      split at hki
      · cases hki
      · obtain rfl := Option.some.inj hki
        simp only
        split <;> decide
  | none =>
      rw [hlookup] at hki
      cases hfallback : fallbackVk key with
      | error e => simp [hfallback, bind, Except.bind] at hki
      | ok vkCode =>
          simp only [hfallback, bind, Except.bind, pure, Except.pure, Except.ok.injEq] at hki
          split at hki
          · cases hki
          · obtain rfl := Option.some.inj hki
            simp only
            split <;> decide

/-- Asking for the release of a key keeps its target. -/
theorem target_keyUp {ki : KeybdInput}
    (hflags : ki.dwFlags ∈ [KEYEVENTF_SCANCODE ||| KEYEVENTF_EXTENDEDKEY, KEYEVENTF_SCANCODE,
      KEYEVENTF_EXTENDEDKEY, 0]) :
    hasFlag ki.dwFlags KEYEVENTF_KEYUP = false ∧
      hasFlag (ki.dwFlags ||| KEYEVENTF_KEYUP) KEYEVENTF_KEYUP = true ∧
      KeybdInput.target { ki with dwFlags := ki.dwFlags ||| KEYEVENTF_KEYUP } = ki.target := by
  have hbits : ∀ flags ∈ [KEYEVENTF_SCANCODE ||| KEYEVENTF_EXTENDEDKEY, KEYEVENTF_SCANCODE,
      KEYEVENTF_EXTENDEDKEY, 0], hasFlag flags KEYEVENTF_KEYUP = false ∧
        hasFlag (flags ||| KEYEVENTF_KEYUP) KEYEVENTF_KEYUP = true ∧
        hasFlag (flags ||| KEYEVENTF_KEYUP) KEYEVENTF_SCANCODE =
          hasFlag flags KEYEVENTF_SCANCODE ∧
        hasFlag (flags ||| KEYEVENTF_KEYUP) KEYEVENTF_EXTENDEDKEY =
          hasFlag flags KEYEVENTF_EXTENDEDKEY := by
    simp only [List.forall_mem_cons, List.not_mem_nil, false_imp_iff, implies_true, and_true]
    decide
  obtain ⟨hdown, hup, hscan, hextended⟩ := hbits _ hflags
  refine ⟨hdown, hup, ?_⟩
  rw [KeybdInput.target, KeybdInput.target, hscan, hextended]

/-- The handler injects the key of a key message. -/
theorem inputs_message (hjson : host.json.Documented) (e : KeyEvent K) :
    (e.message code).inputs host =
      match injectKeyboardInput host.mapVirtualKey e.inputType e.key (code e.physical) e.ctrlKey
          e.shiftKey e.altKey e.metaKey with
      | .ok inputs => inputs
      | .error _ => [] := by
  -- the input type names a key, and is none of the types of the mouse
  have htype : startsWith "key" e.inputType = true ∧ (startsWith "mouse" e.inputType ||
      e.inputType = "click" || e.inputType = "contextmenu" || e.inputType = "wheel") = false := by
    unfold KeyEvent.inputType
    cases e.down <;> decide
  have hobject : (e.message code).json = some (.obj (e.members code)) := rfl
  have hread : host.json.valueString (.obj (e.members code)) "type" "" = .ok "input" :=
    hjson.string "" rfl
  have hevents : inputEvents host (.obj (e.members code)) =
      injectKeyboardInput host.mapVirtualKey e.inputType e.key (code e.physical) e.ctrlKey
        e.shiftKey e.altKey e.metaKey := by
    rw [KeyEvent.members, inputEvents, hjson.string "" rfl, hjson.string "" rfl,
      hjson.string "" rfl, hjson.bool false rfl, hjson.bool false rfl, hjson.bool false rfl,
      hjson.bool false rfl]
    simp only [bind, Except.bind, htype.2, Bool.false_eq_true, if_false, htype.1, if_true]
  cases hkeys : injectKeyboardInput host.mapVirtualKey e.inputType e.key (code e.physical) e.ctrlKey
      e.shiftKey e.altKey e.metaKey with
  | error err =>
      rw [hkeys] at hevents
      simp only [Message.inputs, hobject, hread, if_true, hevents]
  | ok inputs =>
      rw [hkeys] at hevents
      simp only [Message.inputs, hobject, hread, if_true, hevents]

/-- **A key message** presses or releases the target of its key, or injects nothing. -/
theorem keyTransition_message (hjson : host.json.Documented) (e : KeyEvent K) :
    ((e.message code).inputs host).filterMap Input.keyTransition =
      ((keyTarget host.mapVirtualKey e.key (code e.physical)).map (·, e.down)).toList := by
  rw [inputs_message hjson, keyTarget, injectKeyboardInput]
  cases hki : keyboardInput host.mapVirtualKey e.key (code e.physical) with
  | error err => rfl
  | ok found =>
      cases found with
      | none => rfl
      | some ki =>
          obtain ⟨hdown, hup, htarget⟩ := target_keyUp (dwFlags_mem hki)
          cases hway : e.down with
          | true =>
              have htype : e.inputType = "keydown" := by rw [KeyEvent.inputType, hway]; rfl
              simp [bind, Except.bind, pure, Except.pure, htype, Input.keyTransition, hdown]
          | false =>
              have htype : e.inputType = "keyup" := by rw [KeyEvent.inputType, hway]; rfl
              simp [bind, Except.bind, pure, Except.pure, htype, Input.keyTransition, hup, htarget]

/-- A key message does not end the process. -/
theorem closes_message {json : JsonLibrary} (hjson : json.Documented) (e : KeyEvent K) :
    (e.message code).closes json = false := by
  have hobject : (e.message code).json = some (.obj (e.members code)) := rfl
  have hread : json.valueString (.obj (e.members code)) "type" "" = .ok "input" :=
    hjson.string "" rfl
  simp [Message.closes, hobject, hread]

/-- **What is held on the agent**, from the targets of the keys. -/
theorem heldOnAgent_eq (hjson : host.json.Documented) (events : List (KeyEvent K)) :
    KeyEvent.heldOnAgent code host events =
      heldAfter ∅ (events.filterMap fun e =>
        (keyTarget host.mapVirtualKey e.key (code e.physical)).map (·, e.down)) := by
  have hcloses : ∀ m ∈ events.map (KeyEvent.message code), m.closes host.json = false := by
    intro m hm
    obtain ⟨e, -, rfl⟩ := List.mem_map.mp hm
    exact closes_message hjson e
  have hrun := injected_receive host hcloses (a := {}) rfl
  rw [KeyEvent.heldOnAgent, hrun]
  refine congrArg (heldAfter ∅) ?_
  rw [List.flatten_nil, List.nil_append]
  clear hrun hcloses
  induction events with
  | nil => rfl
  | cons e events ih =>
      rw [List.map_cons, List.flatMap_cons, List.filterMap_append, ih, keyTransition_message hjson,
        List.filterMap_cons]
      cases keyTarget host.mapVirtualKey e.key (code e.physical) <;> rfl

end Handling

end BrowCast
