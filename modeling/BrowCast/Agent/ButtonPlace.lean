import BrowCast.Agent.MouseMessages

/-! # Where buttons act

`InjectMouseInput` fills in the coordinates of every mouse event, but sets `MOUSEEVENTF_MOVE` for a
mousemove only, so a button acts where the last mousemove, of whichever viewer, has left the
pointer. -/

namespace BrowCast

section

variable (desktop : Desktop) (json : JsonLibrary)

/-- Handling a message adds these events to those injected before. -/
def Agent.adds (host : Host) (a : Agent) (message : Message) : List Input :=
  (a.receive host message).injected.flatten.drop a.injected.flatten.length

/-- The buttons a message moves after the messages `before` it, each with the place of the pointer
at that moment; `pointer` is where the pointer was at first. -/
def actsOf (mapVirtualKey : WORD → WORD) (pointer : Point) (before : List Message)
    (message : Message) : List (Transition × Point) :=
  let host : Host := ⟨desktop.metrics, mapVirtualKey, json⟩
  let a := before.foldl (Agent.receive host) {}
  desktop.transitionsAt (desktop.pointerAfter pointer a.injected.flatten) (a.adds host message)

/-- Of the messages of a session's viewers, each with its sender in the order the agent receives
them, every one that moves a button moves it at the point its own coordinates stand for. -/
def ActsInPlace (mapVirtualKey : WORD → WORD) (pointer : Point)
    (arrivals : List (ConnId × Message)) : Prop :=
  ∀ before sender message after, arrivals = before ++ (sender, message) :: after →
    ∀ e, message.mouseEvent json = some e →
      ∀ act ∈ actsOf desktop json mapVirtualKey pointer (before.map Prod.snd) message,
        act.2 = e.aim desktop

/-- The point the last mousemove among the messages stands for; before any, the place the pointer
was in at first. -/
def lastAim (pointer : Point) (messages : List Message) : Point :=
  messages.foldl (fun place message =>
    match message.mouseEvent json with
    | some e => if e.inputType = "mousemove" then e.aim desktop else place
    | none => place) pointer

/-- Every message that moves a button stands for the same point as the mousemove before it. -/
def Announced (pointer : Point) (arrivals : List (ConnId × Message)) : Prop :=
  ∀ before sender message after, arrivals = before ++ (sender, message) :: after →
    ∀ e, message.mouseEvent json = some e → e.transitions ≠ [] →
      lastAim desktop json pointer (before.map Prod.snd) = e.aim desktop

end

/-! ## Where the pointer is -/

section Pointer

variable {desktop : Desktop} {json : JsonLibrary} {mapVirtualKey : WORD → WORD}

/-- The pointer moves through a list of events part by part. -/
theorem Desktop.pointerAfter_append (desktop : Desktop) (pointer : Point)
    (inputs rest : List Input) :
    desktop.pointerAfter pointer (inputs ++ rest) =
      desktop.pointerAfter (desktop.pointerAfter pointer inputs) rest := by
  induction inputs generalizing pointer with
  | nil => rfl
  | cons input inputs ih =>
      cases input with
      | mouse mi => exact ih _
      | keyboard ki => exact ih _

/-- Injecting a mouse message moves the buttons where the pointer is. -/
theorem MouseEvent.transitionsAt_inputs (e : MouseEvent) (pointer : Point) :
    desktop.transitionsAt pointer (e.inputs desktop.metrics) = e.transitions.map (·, pointer) := by
  obtain ⟨hmoves, hstill⟩ := e.inputs_spec desktop.screen_ne_zero
  by_cases hmove : e.inputType = "mousemove"
  · have hnone : e.transitions = [] := by
      rw [MouseEvent.transitions, hmove]
      rfl
    have hmap := desktop.map_fst_transitionsAt pointer (e.inputs desktop.metrics)
    rw [hmoves, hnone, List.map_eq_nil_iff] at hmap
    rw [hmap, hnone, List.map_nil]
  · rw [(desktop.transitionsAt_of_still pointer (hstill hmove)).1, hmoves]

/-- Handling a message moves the pointer when it is a mousemove. -/
theorem pointerAfter_inputs (pointer : Point) (message : Message) :
    desktop.pointerAfter pointer (message.inputs ⟨desktop.metrics, mapVirtualKey, json⟩) =
      lastAim desktop json pointer [message] := by
  have hinputs := Message.inputs_eq ⟨desktop.metrics, mapVirtualKey, json⟩ message
  rw [lastAim, List.foldl_cons, List.foldl_nil]
  cases hevent : message.mouseEvent json with
  | none =>
      rw [hevent] at hinputs
      refine (desktop.transitionsAt_of_still pointer fun input hinput => ?_).2
      obtain ⟨ki, rfl⟩ := hinputs input hinput
      rfl
  | some e =>
      rw [hevent] at hinputs
      simp only at hinputs ⊢
      rw [hinputs]
      by_cases hmove : e.inputType = "mousemove"
      · rw [if_pos hmove, MouseEvent.inputs, hmove, desktop.pointerAfter_mousemove]
        rfl
      · obtain ⟨-, hstill⟩ := e.inputs_spec desktop.screen_ne_zero
        rw [if_neg hmove, (desktop.transitionsAt_of_still pointer (hstill hmove)).2]

/-- **After a run of messages** the pointer is where the last mousemove has left it. -/
theorem pointerAfter_flatMap_inputs (pointer : Point) (messages : List Message) :
    desktop.pointerAfter pointer
        (messages.flatMap (Message.inputs ⟨desktop.metrics, mapVirtualKey, json⟩)) =
      lastAim desktop json pointer messages := by
  induction messages generalizing pointer with
  | nil => rfl
  | cons message messages ih =>
      rw [List.flatMap_cons, desktop.pointerAfter_append, ih, pointerAfter_inputs]
      rfl

end Pointer

/-! ## Runs -/

/-- A mouse message does not end the process. -/
theorem Message.closes_of_mouseEvent {json : JsonLibrary} {message : Message} {e : MouseEvent}
    (hevent : message.mouseEvent json = some e) : message.closes json = false := by
  unfold Message.mouseEvent at hevent
  unfold Message.closes
  cases hjson : message.json with
  | none => rfl
  | some json_msg =>
    rw [hjson] at hevent
    simp only
    cases htype : json.valueString json_msg "type" "" with
    | error e => rfl
    | ok type =>
        simp only [Option.bind_eq_bind, Option.bind_some, htype, Except.toOption] at hevent
        obtain ⟨inputType, -, hguard⟩ := Option.bind_eq_some_iff.mp hevent
        obtain ⟨_, hinput, -⟩ := Option.bind_eq_some_iff.mp hguard
        have htext : type = "input" := by
          by_contra hother
          simp [guard, hother] at hinput
        simp [htext]

/-- Before a message is handled, the run has injected what the messages before it are turned into;
handling it adds its own events. -/
theorem injected_before (host : Host) {before : List Message} {message : Message}
    (hcloses : ∀ m ∈ before ++ [message], m.closes host.json = false) :
    (before.foldl (Agent.receive host) {}).injected.flatten =
        before.flatMap (Message.inputs host) ∧
      (before.foldl (Agent.receive host) {}).adds host message = message.inputs host := by
  have hbefore := injected_receive host (a := {})
    (fun m (hm : m ∈ before) => hcloses m (List.mem_append_left _ hm)) rfl
  have hafter := injected_receive host (a := {}) hcloses rfl
  rw [List.foldl_append, List.flatMap_append] at hafter
  refine ⟨hbefore, ?_⟩
  rw [Agent.adds, hbefore]
  exact (congrArg (List.drop _) hafter).trans (by simp)

/-- The buttons of a message act where the messages before it have left the pointer. -/
theorem actsOf_eq {desktop : Desktop} {json : JsonLibrary} {mapVirtualKey : WORD → WORD}
    {before : List Message} {message : Message} (hcloses : ∀ m ∈ before, m.closes json = false)
    {e : MouseEvent} (hevent : message.mouseEvent json = some e) (pointer : Point) :
    actsOf desktop json mapVirtualKey pointer before message =
      e.transitions.map (·, lastAim desktop json pointer before) := by
  have hrun : ∀ m ∈ before ++ [message], m.closes json = false := by
    intro m hm
    rcases List.mem_append.mp hm with hbefore | hself
    · exact hcloses m hbefore
    · rw [List.mem_singleton.mp hself]
      exact Message.closes_of_mouseEvent hevent
  obtain ⟨hinjected, hadds⟩ :=
    injected_before ⟨desktop.metrics, mapVirtualKey, json⟩ hrun
  have hinputs := Message.inputs_eq ⟨desktop.metrics, mapVirtualKey, json⟩ message
  rw [hevent] at hinputs
  simp only at hinputs
  rw [actsOf, hinjected, hadds, pointerAfter_flatMap_inputs, hinputs]
  exact e.transitionsAt_inputs _

/-- **Buttons act in place** in a run exactly when each was announced by a mousemove. -/
theorem actsInPlace_iff_announced (desktop : Desktop) (json : JsonLibrary)
    (mapVirtualKey : WORD → WORD) (pointer : Point) {arrivals : List (ConnId × Message)}
    (hcloses : ∀ arrival ∈ arrivals, arrival.2.closes json = false) :
    ActsInPlace desktop json mapVirtualKey pointer arrivals ↔
      Announced desktop json pointer arrivals := by
  have hbefore : ∀ before sender message after,
      arrivals = before ++ (sender, message) :: after →
        ∀ m ∈ before.map Prod.snd, m.closes json = false := by
    intro before sender message after hsplit m hm
    obtain ⟨arrival, harrival, rfl⟩ := List.mem_map.mp hm
    exact hcloses arrival (hsplit ▸ List.mem_append_left _ harrival)
  constructor
  · intro hacts before sender message after hsplit e hevent hmoves
    obtain ⟨moved, hmoved⟩ := List.exists_mem_of_ne_nil _ hmoves
    have hplace := hacts before sender message after hsplit e hevent
    rw [actsOf_eq (hbefore before sender message after hsplit) hevent] at hplace
    exact hplace _ (List.mem_map_of_mem hmoved)
  · intro hannounced before sender message after hsplit e hevent act hact
    rw [actsOf_eq (hbefore before sender message after hsplit) hevent] at hact
    obtain ⟨moved, hmoved, rfl⟩ := List.mem_map.mp hact
    exact hannounced before sender message after hsplit e hevent (List.ne_nil_of_mem hmoved)

/-- A move and a press at the same pixel, by two viewers. -/
theorem actsInPlace_samePixel :
    ActsInPlace (Desktop.single 1920 1080 (by decide)) .lowBits (fun _ => 0) (0, 0)
      [(1, mouseMessage "mousemove" 960 540 0), (2, mouseMessage "mousedown" 960 540 0)] := by
  refine (actsInPlace_iff_announced _ _ _ _ (by decide)).mpr ?_
  intro before sender message after hsplit e hevent hmoves
  match before with
  | [] =>
      -- the move presses no button
      obtain ⟨hself, -⟩ := List.cons.inj hsplit
      rw [← (Prod.mk.inj hself).2, mouseEvent_mouseMessage JsonLibrary.lowBits_documented
        (by decide) (by decide) (by decide) (by decide)] at hevent
      rw [← Option.some.inj hevent] at hmoves
      exact absurd (by decide) hmoves
  | [first] =>
      obtain ⟨hfirst, hrest⟩ := List.cons.inj hsplit
      obtain ⟨hself, -⟩ := List.cons.inj hrest
      rw [← (Prod.mk.inj hself).2] at hevent
      rw [mouseEvent_mouseMessage JsonLibrary.lowBits_documented (by decide) (by decide)
        (by decide) (by decide)] at hevent
      rw [← Option.some.inj hevent, ← hfirst]
      decide +kernel
  | _ :: _ :: _ => simp at hsplit

/-- One viewer moves the pointer to the top-left corner, another presses the left button in the
middle: the button goes down in the corner. -/
theorem actsInPlace_elsewhere :
    ¬ ActsInPlace (Desktop.single 1920 1080 (by decide)) .lowBits (fun _ => 0) (0, 0)
      [(1, mouseMessage "mousemove" 0 0 0), (2, mouseMessage "mousedown" 960 540 0)] := by
  intro hacts
  have hplace := hacts [(1, mouseMessage "mousemove" 0 0 0)] 2
    (mouseMessage "mousedown" 960 540 0) [] rfl ⟨"mousedown", 960, 540, 0, 0⟩ (by decide +kernel)
  revert hplace
  decide +kernel

end BrowCast
