import BrowCast.Agent.MouseMessages
import BrowCast.Runs.Echo
import BrowCast.Web.InputGuard

/-! # Gestures of the mouse

A press and a release of a mouse button reach the canvas as mousedown and mouseup, and the browser
adds a click or a contextmenu event to some of them. The viewer sends all of these, and the agent
presses and releases the button again for a click and a contextmenu. So the buttons are replayed
once exactly when the browser adds nothing. -/

namespace BrowCast.Web

/-! ## What a browser fires -/

/-- The number of a button in the events of a browser. -/
def buttonNumber : Button → ℕ
  | .left => 0
  | .middle => 1
  | .right => 2

/-- The buttons held after one more press or release. -/
def holdNext (held : Button → Bool) (t : Transition) : Button → Bool :=
  Function.update held t.button t.down

/-- The events a browser adds to the mousedown or mouseup of a press or release: a click after a
left press and release, and a contextmenu event for a right press, which some fire when the button
goes down, others when it goes up again. -/
def addedEvents (menuOnPress : Bool) (held : Button → Bool) :
    Transition → List (MouseType × ℕ)
  | ⟨.left, false⟩ => if held .left then [(.click, buttonNumber .left)] else []
  | ⟨.right, true⟩ => if menuOnPress then [(.contextmenu, buttonNumber .right)] else []
  | ⟨.right, false⟩ =>
      if !menuOnPress && held .right then [(.contextmenu, buttonNumber .right)] else []
  | _ => []

/-- The events a browser fires for a sequence of presses and releases over the canvas. -/
def domEvents (menuOnPress : Bool) : (Button → Bool) → List Transition → List (MouseType × ℕ)
  | _, [] => []
  | held, t :: physical =>
      (if t.down then .mousedown else .mouseup, buttonNumber t.button) ::
        (addedEvents menuOnPress held t ++ domEvents menuOnPress (holdNext held t) physical)

/-- An event fired at a page that shows frames of finite size, on a canvas of some size. -/
structure Fired where
  page : Page
  event : DomEvent
  rect : DomRect
  width : Number
  height : Number
  accepts : page.Accepts width height
  finite : width.IsFinite ∧ height.IsFinite
  size : 0 < rect.width ∧ 0 < rect.height

namespace Fired

variable (f : Fired)

/-- The type and the button, for events other than those of moving, of the wheel and of keys. -/
def button : Option (MouseType × ℕ) :=
  match f.event with
  | .mouse .mousemove _ _ _ | .wheel _ _ _ | .key .. => none
  | .mouse type _ _ button => some (type, button)

/-- What the page sends, as it reaches the agent; `stringify` is `JSON.stringify`. -/
def messages (stringify : Json → String) : List Message :=
  (f.page.sentBy (.input f.event f.rect)).map fun sent => ⟨stringify sent.2, some sent.2⟩

/-- The page sends one message. -/
theorem messages_eq (stringify : Json → String) :
    f.messages stringify = [⟨stringify (f.event.object f.rect f.width f.height),
      some (f.event.object f.rect f.width f.height)⟩] := by
  obtain ⟨i, -, hsent⟩ := sentBy_input f.accepts f.event f.rect
  rw [messages, hsent]
  rfl

end Fired

/-! ## Coordinates of a shown frame -/

section Coordinates

variable {width height : Number} {rect : DomRect}

/-- The image has a size on the screen when the element and its aspect have one. -/
theorem displayedImage_isPositive {aspect : Number} (haspect : aspect.IsPositive)
    (hsize : 0 < rect.width ∧ 0 < rect.height) :
    let shown := displayedImage rect aspect
    (shown.displayedImageWidth.IsPositive ∧ shown.displayedImageHeight.IsPositive) ∧
      shown.displayOffsetX.IsFinite ∧ shown.displayOffsetY.IsFinite := by
  have hwidth := Number.isPositive_ofRat hsize.1
  have hheight := Number.isPositive_ofRat hsize.2
  have htwo : (Number.ofRat 2).IsPositive := Number.isPositive_ofRat (by norm_num)
  unfold displayedImage
  by_cases hwide : aspect.greater ((Number.ofRat rect.width).div (.ofRat rect.height)) = true
  · simp only [if_pos hwide]
    exact ⟨⟨hwidth, hwidth.div haspect⟩, Number.isFinite_ofRat 0,
      (hheight.isFinite.sub (hwidth.div haspect).isFinite).div htwo⟩
  · simp only [if_neg hwide]
    exact ⟨⟨hheight.mul haspect, hheight⟩,
      (hwidth.isFinite.sub (hheight.mul haspect).isFinite).div htwo, Number.isFinite_ofRat 0⟩

/-- Coordinates in an image of some size are finite. -/
theorem scaledCoordinate_isFinite {original displayed offset : Number} (start client : ℚ)
    (horiginal : original.IsFinite) (hdisplayed : displayed.IsPositive)
    (hoffset : offset.IsFinite) :
    (scaledCoordinate original displayed offset (.ofRat start) (.ofRat client)).IsFinite := by
  unfold scaledCoordinate
  have hrelative := ((Number.isFinite_ofRat client).sub (Number.isFinite_ofRat start)).sub hoffset
  exact (Number.isFinite_ofRat 0).max
    (((hrelative.mul (horiginal.div hdisplayed)).round).min
      (horiginal.sub (Number.isFinite_ofRat 1)))

/-- The coordinates sent for a frame of finite size are finite. -/
theorem scaled_isFinite (event : DomEvent) (hwidth : width.IsPositive) (hheight : height.IsPositive)
    (hsize : 0 < rect.width ∧ 0 < rect.height) :
    (event.scaled rect width height).1.IsFinite ∧ (event.scaled rect width height).2.IsFinite := by
  obtain ⟨⟨hshownWidth, hshownHeight⟩, hoffsetX, hoffsetY⟩ :=
    displayedImage_isPositive (hwidth.div hheight) hsize
  exact ⟨scaledCoordinate_isFinite _ _ hwidth.isFinite hshownWidth hoffsetX,
    scaledCoordinate_isFinite _ _ hheight.isFinite hshownHeight hoffsetY⟩

end Coordinates

/-! ## What the agent reads -/

section Reading

variable {json : JsonLibrary} {event : DomEvent} {rect : DomRect} {width height : Number}

/-- The buttons a message moves are those of its mouse event. -/
theorem transitions_inputs (desktop : Desktop) (mapVirtualKey : WORD → WORD) (json : JsonLibrary)
    (message : Message) :
    transitions (message.inputs ⟨desktop.metrics, mapVirtualKey, json⟩) =
      ((message.mouseEvent json).map MouseEvent.transitions).getD [] := by
  have hinputs := Message.inputs_eq ⟨desktop.metrics, mapVirtualKey, json⟩ message
  cases hevent : message.mouseEvent json with
  | none =>
      rw [hevent] at hinputs
      exact transitions_of_keyboard hinputs
  | some e =>
      rw [hevent] at hinputs
      simp only at hinputs
      rw [hinputs]
      exact (e.inputs_spec desktop.screen_ne_zero).1

/-- The type of what the viewer sends is read. -/
theorem valueString_type (hjson : json.Documented) :
    json.valueString (event.object rect width height) "type" "" = .ok "input" :=
  hjson.string "" (event.member_object rect width height "type")

/-- The type of the input is read. -/
theorem valueString_inputType (hjson : json.Documented) :
    json.valueString (event.object rect width height) "inputType" "" = .ok event.inputType :=
  hjson.string "" (event.member_object rect width height "inputType")

/-- The type that is read is the type that was sent. -/
theorem inputType_of_mouseEvent (hjson : json.Documented) {text : String} {e : MouseEvent}
    (h : Message.mouseEvent json ⟨text, some (event.object rect width height)⟩ = some e) :
    e.inputType = event.inputType := by
  unfold Message.mouseEvent at h
  simp only [Option.bind_eq_bind, Option.bind_some, valueString_type hjson,
    valueString_inputType hjson, Except.toOption] at h
  -- the fields are read one after the other
  obtain ⟨_, -, h⟩ := Option.bind_eq_some_iff.mp h
  obtain ⟨_, -, h⟩ := Option.bind_eq_some_iff.mp h
  obtain ⟨_, -, h⟩ := Option.bind_eq_some_iff.mp h
  obtain ⟨_, -, h⟩ := Option.bind_eq_some_iff.mp h
  obtain ⟨_, -, h⟩ := Option.bind_eq_some_iff.mp h
  cases h
  rfl

end Reading

/-- The buttons an event moves when the agent replays it. -/
def buttonMoves (b : MouseType × ℕ) : List Transition :=
  MouseEvent.transitions ⟨(DomEvent.mouse b.1 0 0 b.2).inputType, 0, 0, b.2, 0⟩

namespace Fired

variable (f : Fired) {json : JsonLibrary}

/-- The coordinates of an event are read, as some `int`. -/
theorem exists_coordinates (hjson : json.Documented) (hplace : f.event.hasCoordinates = true) :
    (∃ x, json.valueInt (f.event.object f.rect f.width f.height) "x" 0 = .ok x) ∧
      ∃ y, json.valueInt (f.event.object f.rect f.width f.height) "y" 0 = .ok y := by
  obtain ⟨hx, hy⟩ := scaled_isFinite f.event
    (Number.isPositive_of_greater f.finite.1 f.accepts.width_pos)
    (Number.isPositive_of_greater f.finite.2 f.accepts.height_pos) f.size
  obtain ⟨hmemberX, hmemberY⟩ := f.event.member_coordinates f.rect f.width f.height
  rw [hplace, if_pos rfl, Json.ofNumber_eq hx] at hmemberX
  rw [hplace, if_pos rfl, Json.ofNumber_eq hy] at hmemberY
  exact ⟨hjson.number 0 hmemberX, hjson.number 0 hmemberY⟩

/-- Only events of the mouse have a button. -/
theorem event_of_button {type : MouseType} {button : ℕ} (hbutton : f.button = some (type, button)) :
    type ≠ .mousemove ∧ ∃ clientX clientY, f.event = .mouse type clientX clientY button := by
  unfold Fired.button at hbutton
  split at hbutton
  · cases hbutton
  · cases hbutton
  · cases hbutton
  · rename_i firedType clientX clientY firedButton hmove hevent
    obtain ⟨rfl, rfl⟩ := Prod.mk.inj (Option.some.inj hbutton)
    exact ⟨hmove, clientX, clientY, hevent⟩

/-- An event of a button is read with its type and its button. -/
theorem exists_mouseEvent (hjson : json.Documented) {type : MouseType} {button : ℕ}
    (hbutton : f.button = some (type, button)) (hfits : CInt.FitsInt button) (text : String) :
    ∃ x y, Message.mouseEvent json ⟨text, some (f.event.object f.rect f.width f.height)⟩ =
      some ⟨(DomEvent.mouse type 0 0 button).inputType, x, y, button, 0⟩ := by
  obtain ⟨htype, clientX, clientY, hevent⟩ := f.event_of_button hbutton
  obtain ⟨⟨x, hx⟩, y, hy⟩ := f.exists_coordinates hjson (by rw [hevent]; rfl)
  have hmouse : startsWith "mouse" "mousedown" = true ∧ startsWith "mouse" "mouseup" = true := by
    decide
  have hmember : (f.event.object f.rect f.width f.height).member "button" =
      some (.num (.finite false button)) := by
    rw [DomEvent.member_object, hevent]
    cases type with
    | mousemove => exact absurd rfl htype
    | _ => rfl
  have hdelta : (f.event.object f.rect f.width f.height).member "deltaY" = none := by
    rw [DomEvent.member_object, hevent]
    cases type <;> rfl
  refine ⟨x, y, ?_⟩
  simp only [Message.mouseEvent, Option.bind_eq_bind, Option.bind_some, valueString_type hjson,
    valueString_inputType hjson, hx, hy, hjson.natCast (-1) hmember hfits, Except.toOption,
    show json.valueInt (f.event.object f.rect f.width f.height) "deltaY" 0 = .ok 0 from
      hjson.missing 0 hdelta]
  rw [hevent]
  cases type with
  | mousemove => exact absurd rfl htype
  | _ => simp [DomEvent.inputType, guard, hmouse]

/-- Other events move no button. -/
theorem transitions_of_no_button (hbutton : f.button = none) {e : MouseEvent}
    (htype : e.inputType = f.event.inputType) : e.transitions = [] := by
  unfold Fired.button at hbutton
  unfold MouseEvent.transitions
  rw [htype]
  cases hevent : f.event with
  | mouse type clientX clientY button =>
      rw [hevent] at hbutton
      cases type with
      | mousemove => rfl
      | _ => cases hbutton
  | wheel deltaY clientX clientY => rfl
  | key down keyName code keyCode ctrlKey shiftKey altKey metaKey => cases down <;> rfl

/-- The agent moves the buttons of the event. -/
theorem transitions_messages (desktop : Desktop) (mapVirtualKey : WORD → WORD)
    (hjson : json.Documented) (stringify : Json → String)
    (hbutton : ∀ b, f.button = some b → CInt.FitsInt b.2) :
    transitions ((f.messages stringify).flatMap
      (Message.inputs ⟨desktop.metrics, mapVirtualKey, json⟩)) =
        f.button.toList.flatMap buttonMoves := by
  rw [messages_eq, List.flatMap_singleton, transitions_inputs]
  cases hfired : f.button with
  | none =>
      cases hevent : Message.mouseEvent json ⟨stringify (f.event.object f.rect f.width f.height),
          some (f.event.object f.rect f.width f.height)⟩ with
      | none => rfl
      | some e => exact f.transitions_of_no_button hfired (inputType_of_mouseEvent hjson hevent)
  | some b =>
      obtain ⟨type, button⟩ := b
      obtain ⟨x, y, hevent⟩ := f.exists_mouseEvent hjson hfired (hbutton _ hfired)
        (stringify (f.event.object f.rect f.width f.height))
      rw [hevent]
      simp only [Option.map_some, Option.getD_some, Option.toList_some, List.flatMap_singleton]
      rfl

end Fired

/-! ## Gestures -/

/-- The buttons the agent moves, in the end, when it has received what the page sent. -/
def replayed (desktop : Desktop) (mapVirtualKey : WORD → WORD) (json : JsonLibrary)
    (stringify : Json → String) (fired : List Fired) : List Transition :=
  transitions (((fired.flatMap (Fired.messages · stringify)).foldl
    (Agent.receive ⟨desktop.metrics, mapVirtualKey, json⟩) {}).injected.flatten)

/-- The browser adds no event: no left press is followed by a left release; and no right press comes
at all, where the menu opens on the press, or none is followed by a right release. -/
def Plain (menuOnPress : Bool) (physical : List Transition) : Prop :=
  ¬ [⟨.left, true⟩, ⟨.left, false⟩].Sublist physical ∧
    if menuOnPress then ⟨.right, true⟩ ∉ physical
    else ¬ [⟨.right, true⟩, ⟨.right, false⟩].Sublist physical

section Gestures

variable {menuOnPress : Bool} {held : Button → Bool} {physical : List Transition}

/-- What the browser adds is replayed, on top of the gesture itself. -/
theorem flatMap_buttonMoves :
    (domEvents menuOnPress held physical).flatMap buttonMoves =
      echo (fun held t => (addedEvents menuOnPress held t).flatMap buttonMoves) holdNext held
        physical := by
  induction physical generalizing held with
  | nil => rfl
  | cons t physical ih =>
      have hself : buttonMoves (if t.down then .mousedown else .mouseup, buttonNumber t.button) =
          [t] := by
        obtain ⟨button, down⟩ := t
        cases button <;> cases down <;> decide
      rw [domEvents, List.flatMap_cons, List.flatMap_append, ih, hself, echo]
      rfl

/-- A click and a contextmenu event press and release a button once more. -/
theorem flatMap_addedEvents_eq_nil {t : Transition} :
    (addedEvents menuOnPress held t).flatMap buttonMoves = [] ↔
      (t = ⟨.left, false⟩ → held .left = false) ∧
        if menuOnPress then t ≠ ⟨.right, true⟩
        else (t = ⟨.right, false⟩ → held .right = false) := by
  have hclick : buttonMoves (.click, buttonNumber .left) ≠ [] := by decide
  have hmenu : buttonMoves (.contextmenu, buttonNumber .right) ≠ [] := by decide
  obtain ⟨button, down⟩ := t
  cases hleft : held .left <;> cases hright : held .right <;> cases menuOnPress <;> cases button <;>
    cases down <;> simp [addedEvents, hleft, hright, hclick, hmenu]

/-- Whether a release of a button follows a press, event by event. -/
theorem neverFollows_cons (button : Button) (t : Transition) :
    NeverFollows (⟨button, true⟩ : Transition) ⟨button, false⟩ (held button = true)
        (t :: physical) ↔
      (t = ⟨button, false⟩ → held button = false) ∧
        NeverFollows (⟨button, true⟩ : Transition) ⟨button, false⟩
          (holdNext held t button = true) physical := by
  have hne : (⟨button, true⟩ : Transition) ≠ ⟨button, false⟩ := by simp
  obtain ⟨other, down⟩ := t
  by_cases hbutton : other = button
  · subst hbutton
    cases down with
    | true => simp [neverFollows_first hne, holdNext]
    | false => simp [neverFollows_last hne, holdNext]
  · have hheld : holdNext held ⟨other, down⟩ button = held button := by
      exact Function.update_of_ne (Ne.symm hbutton) _ _
    rw [hheld, neverFollows_other (by simp [hbutton]) (by simp [hbutton])]
    simp [hbutton]

/-- Nothing is added when no left release follows a left press, and no menu opens. -/
theorem nothingAdded_iff :
    NothingAdded (fun held t => (addedEvents menuOnPress held t).flatMap buttonMoves) holdNext held
        physical ↔
      NeverFollows (⟨.left, true⟩ : Transition) ⟨.left, false⟩ (held .left = true) physical ∧
        if menuOnPress then ⟨.right, true⟩ ∉ physical
        else NeverFollows (⟨.right, true⟩ : Transition) ⟨.right, false⟩ (held .right = true)
          physical := by
  induction physical generalizing held with
  | nil => cases menuOnPress <;> simp [NothingAdded, NeverFollows]
  | cons t physical ih =>
      rw [NothingAdded, flatMap_addedEvents_eq_nil, ih, neverFollows_cons, neverFollows_cons,
        List.mem_cons, not_or]
      cases menuOnPress with
      | true =>
          simp only [if_true]
          constructor
          · rintro ⟨⟨hleft, hright⟩, hlefts, hrights⟩
            exact ⟨⟨hleft, hlefts⟩, Ne.symm hright, hrights⟩
          · rintro ⟨⟨hleft, hlefts⟩, hright, hrights⟩
            exact ⟨⟨hleft, Ne.symm hright⟩, hlefts, hrights⟩
      | false =>
          simp only [Bool.false_eq_true, if_false]
          exact and_and_and_comm

/-- Every event carries the number of a button. -/
theorem exists_button_of_mem_domEvents {b : MouseType × ℕ}
    (hb : b ∈ domEvents menuOnPress held physical) : ∃ button, b.2 = buttonNumber button := by
  induction physical generalizing held with
  | nil => cases hb
  | cons t physical ih =>
      rcases List.mem_cons.mp hb with rfl | hb
      · exact ⟨t.button, rfl⟩
      rcases List.mem_append.mp hb with hadded | hrest
      · unfold addedEvents at hadded
        split at hadded
        · split_ifs at hadded
          · exact ⟨.left, congrArg Prod.snd (List.mem_singleton.mp hadded)⟩
          · cases hadded
        · split_ifs at hadded
          · exact ⟨.right, congrArg Prod.snd (List.mem_singleton.mp hadded)⟩
          · cases hadded
        · split_ifs at hadded
          · exact ⟨.right, congrArg Prod.snd (List.mem_singleton.mp hadded)⟩
          · cases hadded
        · cases hadded
      · exact ih hrest

/-- The number of a button fits the agent's `int`. -/
theorem fitsInt_buttonNumber (button : Button) : CInt.FitsInt (buttonNumber button) := by
  cases button <;> decide

end Gestures

/-- What the page sends does not end the agent. -/
theorem Fired.closes_of_mem {json : JsonLibrary} (hjson : json.Documented)
    {stringify : Json → String} {f : Fired} {m : Message} (hm : m ∈ f.messages stringify) :
    m.closes json = false := by
  rw [f.messages_eq, List.mem_singleton] at hm
  subst hm
  simp [Message.closes, valueString_type hjson]

/-- The agent moves the buttons of the events, one after the other. -/
theorem replayed_eq (desktop : Desktop) (mapVirtualKey : WORD → WORD) {json : JsonLibrary}
    (hjson : json.Documented) (stringify : Json → String) {fired : List Fired}
    (hbuttons : ∀ b ∈ fired.filterMap Fired.button, CInt.FitsInt b.2) :
    replayed desktop mapVirtualKey json stringify fired =
      (fired.filterMap Fired.button).flatMap buttonMoves := by
  have hcloses : ∀ m ∈ fired.flatMap (Fired.messages · stringify), m.closes json = false := by
    intro m hm
    obtain ⟨f, -, hf⟩ := List.mem_flatMap.mp hm
    exact Fired.closes_of_mem hjson hf
  have hrun := injected_receive ⟨desktop.metrics, mapVirtualKey, json⟩ hcloses (a := {}) rfl
  rw [replayed, hrun, List.flatten_nil, List.nil_append]
  clear hrun hcloses
  induction fired with
  | nil => rfl
  | cons f fired ih =>
      have hself := f.transitions_messages desktop mapVirtualKey hjson stringify fun b hb =>
        hbuttons b (List.mem_filterMap.mpr ⟨f, List.mem_cons_self, hb⟩)
      have hrest := ih fun b hb => by
        obtain ⟨g, hg, hgb⟩ := List.mem_filterMap.mp hb
        exact hbuttons b (List.mem_filterMap.mpr ⟨g, List.mem_cons_of_mem _ hg, hgb⟩)
      rw [List.flatMap_cons, List.flatMap_append, transitions_append, hself, hrest,
        List.filterMap_cons]
      cases f.button <;> simp

/-- **Buttons are replayed once** exactly when the browser adds no click and no contextmenu
event. -/
theorem replayed_eq_physical_iff_plain (desktop : Desktop) (mapVirtualKey : WORD → WORD)
    {json : JsonLibrary} (hjson : json.Documented) (stringify : Json → String) (menuOnPress : Bool)
    {physical : List Transition} {fired : List Fired}
    (hfired : fired.filterMap Fired.button = domEvents menuOnPress (fun _ => false) physical) :
    replayed desktop mapVirtualKey json stringify fired = physical ↔
      Plain menuOnPress physical := by
  have hbuttons : ∀ b ∈ fired.filterMap Fired.button, CInt.FitsInt b.2 := by
    intro b hb
    obtain ⟨button, hnumber⟩ := exists_button_of_mem_domEvents (hfired ▸ hb)
    exact hnumber ▸ fitsInt_buttonNumber button
  rw [replayed_eq desktop mapVirtualKey hjson stringify hbuttons, hfired, flatMap_buttonMoves,
    echo_eq_self_iff, nothingAdded_iff, Plain]
  simp [NeverFollows]

/-- A page that shows a frame of 4 by 3 pixels. -/
def watching : Page :=
  (viewer false).after (viewer false).start
    [.connect "localhost" "a" true, .opened 0, .message 0 (frameMessage 4 3), .loaded 0 4 3]

/-- An event of a button in the middle of that page's canvas. -/
def firedOn (type : MouseType) (button : Button) : Fired where
  page := watching
  event := .mouse type 200 150 (buttonNumber button)
  rect := ⟨0, 0, 400, 300⟩
  width := .finite false 4
  height := .finite false 3
  accepts := ⟨by decide +kernel, Json.toNumber_num (.finite false 4), by decide +kernel,
    Json.toNumber_num (.finite false 3), by decide +kernel⟩
  finite := ⟨⟨_, _, rfl⟩, ⟨_, _, rfl⟩⟩
  size := ⟨by norm_num, by norm_num⟩

/-- The middle button, pressed and released. -/
theorem replayed_middle :
    replayed (Desktop.single 1920 1080 (by decide)) (fun _ => 0) .lowBits (fun _ => "")
        [firedOn .mousedown .middle, firedOn .mouseup .middle] =
      [⟨.middle, true⟩, ⟨.middle, false⟩] :=
  (replayed_eq_physical_iff_plain _ _ JsonLibrary.lowBits_documented _ true (by decide)).mpr
    ⟨by decide, by decide⟩

/-- The left button, pressed and released: the agent presses and releases it twice. -/
theorem not_replayed_click :
    let fired := [firedOn .mousedown .left, firedOn .mouseup .left, firedOn .click .left]
    let physical : List Transition := [⟨.left, true⟩, ⟨.left, false⟩]
    let agent :=
      replayed (Desktop.single 1920 1080 (by decide)) (fun _ => 0) .lowBits (fun _ => "") fired
    fired.filterMap Fired.button = domEvents true (fun _ => false) physical ∧
      agent = physical ++ physical ∧ agent ≠ physical := by
  intro fired physical agent
  have htwice : agent = physical ++ physical := by
    rw [show agent = _ from
      replayed_eq _ _ JsonLibrary.lowBits_documented _ (by decide)]
    decide
  refine ⟨by decide, htwice, ?_⟩
  rw [htwice]
  decide

end BrowCast.Web
