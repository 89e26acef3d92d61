import BrowCast.Server.RegistryRefinement

/-! # What a message does to the server

Closed forms for the two message handlers. Once the fields a message writes are written, a handler
only sends, and an exception can stop it between two frames; so the rest of a `try` block is a list
of frames together with the exception that ends it (`Sending`). `step_agentMessage` and
`step_viewerMessage` give the whole step of a message in these terms. -/

namespace BrowCast

/-! ## When a scale can be computed -/

/-- A value that is neither `null` nor `undefined` and has convertible window sizes. -/
def Json.hasWindowSize : Option Json → Bool
  | none | some .null => false
  | some screen =>
      convertible (screen.member "windowWidth") && convertible (screen.member "windowHeight")

/-- Reading a property of a value other than `null` and `undefined`. -/
theorem Json.property_of_ne_null {v : Json} (h : v ≠ .null) (key : String) :
    property key (some v) = .ok (v.member key) := by
  cases v <;> first | rfl | exact absurd rfl h

/-- Which values other than `null` have a window size. -/
theorem Json.hasWindowSize_of_ne_null {v : Json} (h : v ≠ .null) :
    hasWindowSize (some v) =
      (convertible (v.member "windowWidth") && convertible (v.member "windowHeight")) := by
  cases v <;> first | rfl | exact absurd rfl h

/-- Everything a scale is computed from is convertible. -/
def AgentScreen.canScale (agentScreen : AgentScreen) (viewerScreen : Option Json) : Bool :=
  Json.convertible agentScreen.width && Json.convertible agentScreen.height &&
    Json.hasWindowSize viewerScreen

/-- A conversion to a number throws on values that are not convertible, and on no others. -/
theorem Json.toNumber_eq (v : Option Json) :
    ∃ n, toNumber v = if convertible v then .ok n else .error .typeError := by
  rcases v with _ | v
  · exact ⟨.nan, rfl⟩
  · refine ⟨v.numeric, ?_⟩
    by_cases h : v.lacksPrimitive = true <;> simp [toNumber, convertible, h]

/-- A scale can be computed exactly when the values it is computed from are convertible; the
exception is a `TypeError` otherwise. -/
theorem calculateOptimalScale_eq (agentScreen : AgentScreen) (viewerScreen : Option Json) :
    ∃ scale, calculateOptimalScale agentScreen viewerScreen =
      if agentScreen.canScale viewerScreen then .ok scale else .error .typeError := by
  obtain ⟨width, hwidth⟩ := Json.toNumber_eq agentScreen.width
  obtain ⟨height, hheight⟩ := Json.toNumber_eq agentScreen.height
  have hscreen : viewerScreen = none ∨ viewerScreen = some .null ∨
      ∃ v, viewerScreen = some v ∧ v ≠ .null := by
    rcases viewerScreen with _ | v
    · exact Or.inl rfl
    · by_cases hv : v = .null
      · exact Or.inr (Or.inl (congrArg some hv))
      · exact Or.inr (Or.inr ⟨v, rfl, hv⟩)
  rcases hscreen with rfl | rfl | ⟨v, rfl, hv⟩
  · exact ⟨.nan, by simp [calculateOptimalScale, Json.property, AgentScreen.canScale,
      Json.hasWindowSize, bind, Except.bind]⟩
  · exact ⟨.nan, by simp [calculateOptimalScale, Json.property, AgentScreen.canScale,
      Json.hasWindowSize, bind, Except.bind]⟩
  · obtain ⟨windowWidth, hwindowWidth⟩ := Json.toNumber_eq (v.member "windowWidth")
    obtain ⟨windowHeight, hwindowHeight⟩ := Json.toNumber_eq (v.member "windowHeight")
    have hproperty := Json.property_of_ne_null hv
    have hsize := Json.hasWindowSize_of_ne_null hv
    let scaleX := (windowWidth.mul (.ofMagnitude (9 / 10))).div width
    let scaleY := (windowHeight.mul (.ofMagnitude (9 / 10))).div height
    refine ⟨Number.max (.ofMagnitude (1 / 10))
      (Number.min (Number.min scaleX scaleY) (.ofMagnitude 2)), ?_⟩
    simp only [AgentScreen.canScale, hsize]
    simp only [calculateOptimalScale, hproperty, bind, Except.bind, hwidth, hheight, hwindowWidth,
      hwindowHeight]
    -- the conversions are tried in order; the first that throws decides
    by_cases h₁ : Json.convertible (v.member "windowWidth") = true
    · by_cases h₂ : Json.convertible agentScreen.width = true
      · by_cases h₃ : Json.convertible (v.member "windowHeight") = true
        · by_cases h₄ : Json.convertible agentScreen.height = true
          · simp only [h₁, h₂, h₃, h₄, if_true, Bool.and_self]
            rfl
          · simp [h₁, h₂, h₃, h₄]
        · simp [h₁, h₂, h₃]
      · simp [h₁, h₂]
    · simp [h₁]

/-- A scale can be computed exactly when there is one. -/
theorem canScale_iff {agentScreen : AgentScreen} {viewerScreen : Option Json} :
    agentScreen.canScale viewerScreen = true ↔
      ∃ scale, calculateOptimalScale agentScreen viewerScreen = .ok scale := by
  obtain ⟨scale, hscale⟩ := calculateOptimalScale_eq agentScreen viewerScreen
  by_cases h : agentScreen.canScale viewerScreen = true
  · exact iff_of_true h ⟨scale, by rw [hscale, if_pos h]⟩
  · refine iff_of_false h ?_
    rintro ⟨scale', hscale'⟩
    rw [hscale, if_neg h] at hscale'
    cases hscale'

/-- The scale depends on the width and the height of the agent's screen only. -/
theorem calculateOptimalScale_congr {agentScreen agentScreen' : AgentScreen}
    (hwidth : agentScreen'.width = agentScreen.width)
    (hheight : agentScreen'.height = agentScreen.height) (viewerScreen : Option Json) :
    calculateOptimalScale agentScreen' viewerScreen =
      calculateOptimalScale agentScreen viewerScreen := by
  unfold calculateOptimalScale
  rw [hwidth, hheight]

/-! ## Sending until an exception -/

/-- What is left of a `try` block that only sends: the frames it sends, in order, and the exception
that ends it, if any. -/
structure Sending where
  frames : List (ConnId × Outgoing) := []
  failure : Option JsError := none

namespace Sending

/-- The result of sending from `σ`. -/
def result (s : Sending) (σ : Server) : EStateM.Result JsError Server Unit :=
  match s.failure with
  | none => .ok () (σ.deliver s.frames)
  | some e => .error e (σ.deliver s.frames)

/-- One part after the other; the second does not happen when the first throws. -/
def andThen (s t : Sending) : Sending :=
  match s.failure with
  | none => ⟨s.frames ++ t.frames, t.failure⟩
  | some _ => s

variable (s t : Sending) (σ : Server)

/-- Sending ends with its frames sent, also when it fails. -/
@[simp] theorem finalState_result : finalState (s.result σ) = σ.deliver s.frames := by
  unfold result
  cases s.failure <;> rfl

/-- Sending throws when it has a failure. -/
theorem result_eq_error_iff :
    (∃ e τ, s.result σ = .error e τ) ↔ s.failure ≠ none := by
  unfold result
  cases s.failure <;> simp

/-- The first failure of two parts is that of the whole. -/
theorem andThen_failure : (s.andThen t).failure = s.failure.or t.failure := by
  unfold andThen
  cases h : s.failure <;> simp [h]

/-- After a part without a failure the next one is sent too. -/
theorem andThen_of_ok {s : Sending} (h : s.failure = none) :
    s.andThen t = ⟨s.frames ++ t.frames, t.failure⟩ := by simp [andThen, h]

/-- After a failure nothing more is sent. -/
theorem andThen_of_failed {s : Sending} (h : s.failure ≠ none) : s.andThen t = s := by
  unfold andThen
  cases hs : s.failure with
  | none => exact absurd hs h
  | some e => rfl

/-- Parts of a handler one after the other. -/
theorem run_andThen {x y : Handler Unit} {s t : Sending} {σ τ : Server} (hx : x.run σ = s.result τ)
    (hy : y.run (τ.deliver s.frames) = t.result (τ.deliver s.frames)) :
    (x >>= fun _ => y).run σ = (s.andThen t).result τ := by
  rw [EStateM.run_bind, hx]
  cases hs : s.failure with
  | none =>
      rw [andThen_of_ok t hs, result, hs]
      simp only
      rw [hy, result, result]
      cases t.failure <;> simp [Server.deliver_append]
  | some e => rw [andThen_of_failed t (by simp [hs]), result, hs]

end Sending

/-- The loop over the client screens of sockets that are OPEN. -/
def scaleUpdates (agentScreen : AgentScreen) : List (ConnId × Option Json) → Sending
  | [] => {}
  | (clientWs, clientScreen) :: rest =>
      match calculateOptimalScale agentScreen clientScreen with
      | .error e => { failure := some e }
      | .ok scale =>
          ({ frames := [(clientWs, .setScale scale agentScreen.width agentScreen.height)] } :
            Sending).andThen (scaleUpdates agentScreen rest)

/-- The loop stops at a screen exactly when no scale can be computed for some of them. -/
theorem scaleUpdates_failure_eq_none_iff {agentScreen : AgentScreen}
    {screens : List (ConnId × Option Json)} :
    (scaleUpdates agentScreen screens).failure = none ↔
      ∀ e ∈ screens, agentScreen.canScale e.2 = true := by
  induction screens with
  | nil => simp [scaleUpdates]
  | cons e rest ih =>
      -- what the scale is does not matter, only whether there is one
      obtain ⟨scale, hscale⟩ := calculateOptimalScale_eq agentScreen e.2
      rw [scaleUpdates, hscale, List.forall_mem_cons]
      by_cases h : agentScreen.canScale e.2 = true
      · simp only [h, if_true, Sending.andThen_failure, Option.none_or, ih, true_and]
      · simp only [h, if_false, Bool.false_eq_true, reduceCtorEq, false_and]

/-- A loop that stops without having sent anything stops at the first screen. -/
theorem scaleUpdates_frames_eq_nil_iff {agentScreen : AgentScreen}
    {screens : List (ConnId × Option Json)} :
    (scaleUpdates agentScreen screens).frames = [] ↔
      ∀ e ∈ screens.head?, agentScreen.canScale e.2 = false := by
  cases screens with
  | nil => simp [scaleUpdates]
  | cons e rest =>
      obtain ⟨scale, hscale⟩ := calculateOptimalScale_eq agentScreen e.2
      rw [scaleUpdates, hscale]
      by_cases h : agentScreen.canScale e.2 = true
      · simp [h, Sending.andThen_of_ok]
      · simp [h]

/-- Each frame of the loop is the scale for one of the screens it visits. -/
theorem mem_scaleUpdates {agentScreen : AgentScreen} {screens : List (ConnId × Option Json)}
    {f : ConnId × Outgoing} (hf : f ∈ (scaleUpdates agentScreen screens).frames) :
    ∃ e ∈ screens, ∃ scale, calculateOptimalScale agentScreen e.2 = .ok scale ∧
      f = (e.1, .setScale scale agentScreen.width agentScreen.height) := by
  induction screens with
  | nil => cases hf
  | cons e rest ih =>
      rw [scaleUpdates] at hf
      cases hscale : calculateOptimalScale agentScreen e.2 with
      | error err =>
          rw [hscale] at hf
          cases hf
      | ok scale =>
          simp only [hscale, Sending.andThen_of_ok] at hf
          rcases List.mem_cons.mp hf with rfl | hf
          · exact ⟨e, List.mem_cons_self, scale, hscale, rfl⟩
          · obtain ⟨d, hd, hrest⟩ := ih hf
            exact ⟨d, List.mem_cons_of_mem e hd, hrest⟩

/-- The scale for the first screen is sent if it can be computed. -/
theorem scaleUpdates_head {agentScreen : AgentScreen} {e : ConnId × Option Json}
    {rest : List (ConnId × Option Json)} {scale : Number}
    (hscale : calculateOptimalScale agentScreen e.2 = .ok scale) :
    (e.1, .setScale scale agentScreen.width agentScreen.height) ∈
      (scaleUpdates agentScreen (e :: rest)).frames := by
  simp only [scaleUpdates, hscale, Sending.andThen_of_ok]
  exact List.mem_cons_self

/-- The loop sends the scales for all screens if it is not stopped. -/
theorem scaleUpdates_of_ok {agentScreen : AgentScreen} {screens : List (ConnId × Option Json)}
    {e : ConnId × Option Json} (hok : (scaleUpdates agentScreen screens).failure = none)
    (he : e ∈ screens) : ∃ scale, calculateOptimalScale agentScreen e.2 = .ok scale ∧
      (e.1, .setScale scale agentScreen.width agentScreen.height) ∈
        (scaleUpdates agentScreen screens).frames := by
  induction screens with
  | nil => cases he
  | cons d rest ih =>
      rw [scaleUpdates] at hok
      cases hscale : calculateOptimalScale agentScreen d.2 with
      | error err =>
          rw [hscale] at hok
          cases hok
      | ok scale =>
          simp only [hscale, Sending.andThen_failure, Option.none_or] at hok
          rcases List.mem_cons.mp he with rfl | he
          · exact ⟨scale, hscale, scaleUpdates_head hscale⟩
          · obtain ⟨scale', hscale', hmem⟩ := ih hok he
            refine ⟨scale', hscale', ?_⟩
            simp only [scaleUpdates, hscale, Sending.andThen_of_ok]
            exact List.mem_cons_of_mem _ hmem

/-- The loop sends scales only, to the sockets whose screens it visits. -/
theorem scaleUpdates_frames {agentScreen : AgentScreen} {screens : List (ConnId × Option Json)} :
    ∀ f ∈ (scaleUpdates agentScreen screens).frames, f.1 ∈ screens.map Prod.fst ∧ ∃ scale,
      f.2 = .setScale scale agentScreen.width agentScreen.height := by
  intro f hf
  obtain ⟨e, he, scale, -, rfl⟩ := mem_scaleUpdates hf
  exact ⟨List.mem_map_of_mem he, scale, rfl⟩

/-- A `screen_info` message. -/
def Json.announcesScreen (msg : Json) : Bool := isText "screen_info" (msg.member "type")

/-- A `client_info` message. -/
def Json.announcesClient (msg : Json) : Bool := isText "client_info" (msg.member "type")

/-- The text that reports the agent's screen can be built. -/
def AgentScreen.printable (screen : AgentScreen) : Bool :=
  Json.convertible screen.width && Json.convertible screen.height && Json.convertible screen.dpi

/-- The text that reports a viewer's screen can be built. -/
def Json.printableScreen : Option Json → Bool
  | none | some .null => false
  | some screen =>
      convertible (screen.member "width") && convertible (screen.member "height") &&
        convertible (orElse (screen.member "devicePixelRatio") (.num (.ofMagnitude 1)))

/-- Which values other than `null` are printable screens. -/
theorem Json.printableScreen_of_ne_null {screen : Json} (h : screen ≠ .null) :
    printableScreen (some screen) =
      (convertible (screen.member "width") && convertible (screen.member "height") &&
        convertible (orElse (screen.member "devicePixelRatio") (.num (.ofMagnitude 1)))) := by
  cases screen <;> first | rfl | exact absurd rfl h

namespace Server

/-- The client screens of a session object whose sockets are OPEN. -/
def openScreens (session : SessionRef) (σ : Server) : List (ConnId × Option Json) :=
  (σ.sessionAt session).clientScreens.entries.filter fun e => (σ.conn e.1).readyState = .OPEN

/-- What the `screen_info` branch sends. -/
def screenSending (session : SessionRef) (msg : Json) (σ : Server) : Sending :=
  if (screenOf msg).printable then scaleUpdates (screenOf msg) (σ.openScreens session)
  else { failure := some .typeError }

/-- What an agent's message writes. -/
def noteScreen (session : SessionRef) (json : Option Json) (σ : Server) : Server :=
  match json with
  | some msg =>
      if msg.announcesScreen then
        σ.modifySession session fun s => { s with agentScreen := some (screenOf msg) }
      else σ
  | none => σ

/-- What an agent's message sends. -/
def agentSending (ws : ConnId) (session : SessionRef) (json : Option Json) (σ : Server) : Sending :=
  match json with
  | none => { failure := some .syntaxError }
  | some .null => { failure := some .typeError }
  | some msg =>
      (if msg.announcesScreen then σ.screenSending session msg else {}).andThen
        { frames := broadcast (σ.sessionAt session).viewers.values (.forward ws
            (forwardCopy msg ((σ.noteScreen session json).sessionAt session).agentScreen)) }

/-- What the `client_info` branch sends. -/
def clientSending (ws : ConnId) (session : SessionRef) (screen : Option Json) (σ : Server) :
    Sending :=
  if Json.printableScreen screen then
    match (σ.sessionAt session).agentScreen with
    | none => {}
    | some agentScreen => scaleUpdates agentScreen [(ws, screen)]
  else { failure := some .typeError }

/-- What a viewer's message writes. -/
def noteClient (ws : ConnId) (session : SessionRef) (json : Option Json) (σ : Server) : Server :=
  match json with
  | some msg =>
      if msg.announcesClient then
        (σ.modifyConn ws fun w => { w with
          viewerInfo := w.viewerInfo.map fun info =>
            { info with screenInfo := msg.member "screen" } }).modifySession session
          fun s => { s with clientScreens := s.clientScreens.set ws (msg.member "screen") }
      else σ
  | none => σ

/-- What a viewer's message sends. -/
def viewerSending (ws : ConnId) (session : SessionRef) (message : Message) (σ : Server) : Sending :=
  match message.json with
  | none => { failure := some .syntaxError }
  | some .null => { failure := some .typeError }
  | some msg =>
      if msg.announcesClient then σ.clientSending ws session (msg.member "screen")
      else match (σ.sessionAt session).agent with
        | none => {}
        | some agent => { frames := [(agent, .input ws message)] }

end Server

/-! ## The runs of the handlers -/

variable {σ : Server} {ws : ConnId} {session : SessionRef}

open Server

/-- `updateClientScales` sends the scales of the OPEN client screens. -/
theorem run_updateClientScales (σ : Server) (session : SessionRef) (agentScreen : AgentScreen) :
    (updateClientScales session agentScreen).run σ =
      (scaleUpdates agentScreen (σ.openScreens session)).result σ := by
  unfold updateClientScales openScreens
  rw [EStateM.run_bind, run_readState]
  simp only
  generalize (σ.sessionAt session).clientScreens.entries = screens
  -- the list was read before the loop; sending changes no socket's state, so the filter stays right
  induction screens generalizing σ with
  | nil => rfl
  | cons e rest ih =>
      rw [List.forM_cons]
      by_cases hopen : (σ.conn e.1).readyState = .OPEN
      · rw [List.filter_cons_of_pos (by simpa using hopen), scaleUpdates]
        cases hscale : calculateOptimalScale agentScreen e.2 with
        | error err => simp [EStateM.run_bind, hopen, Sending.result]
        | ok scale =>
            apply Sending.run_andThen
            · simp [EStateM.run_bind, hopen, Sending.result]
            · rw [ih]
              simp
      · rw [List.filter_cons_of_neg (by simpa using hopen), EStateM.run_bind]
        simp only [EStateM.run_bind, run_readState, hopen, if_false, EStateM.run_pure]
        exact ih σ

/-- The width of a reported screen. -/
@[simp] theorem screenOf_width (msg : Json) : (screenOf msg).width = msg.member "width" := rfl

/-- The height of a reported screen. -/
@[simp] theorem screenOf_height (msg : Json) : (screenOf msg).height = msg.member "height" := rfl

/-- The DPI of a reported screen, 96 when none is given. -/
@[simp] theorem screenOf_dpi (msg : Json) :
    (screenOf msg).dpi = Json.orElse (msg.member "dpi") (.num (.ofMagnitude 96)) := rfl

/-- The branch stores the screen and then sends. -/
theorem run_onScreenInfo (σ : Server) (session : SessionRef) (msg : Json) :
    (onScreenInfo session msg).run σ = (σ.screenSending session msg).result
      (σ.modifySession session fun s => { s with agentScreen := some (screenOf msg) }) := by
  unfold onScreenInfo screenSending AgentScreen.printable
  -- the loop reads the client screens, which the new agent screen leaves alone
  have hscreens : (σ.modifySession session fun s => { s with
      agentScreen := some (screenOf msg) }).openScreens session = σ.openScreens session := by
    rw [openScreens, sessionAt_modifySession_self]
    rfl
  simp only [EStateM.run_bind, EStateM.run_modify, Json.toText, screenOf_width, screenOf_height,
    screenOf_dpi]
  by_cases hwidth : Json.convertible (msg.member "width") = true
  · by_cases hheight : Json.convertible (msg.member "height") = true
    · by_cases hdpi : Json.convertible
          (Json.orElse (msg.member "dpi") (.num (.ofMagnitude 96))) = true
      · simp only [hwidth, hheight, hdpi, if_true, run_orThrow_ok, Bool.and_self]
        rw [run_updateClientScales, hscreens]
      · simp [hwidth, hheight, hdpi, Sending.result]
    · simp [hwidth, hheight, Sending.result]
  · simp [hwidth, Sending.result]

/-- The forwarding loop of the agent's message handler. -/
theorem run_forwardCopies (σ : Server) (ws : ConnId) (session : SessionRef) (msg : Json) :
    (sendToViewers session fun σ =>
        .forward ws (forwardCopy msg (σ.sessionAt session).agentScreen)).run σ =
      ({ frames := broadcast (σ.sessionAt session).viewers.values
          (.forward ws (forwardCopy msg (σ.sessionAt session).agentScreen)) } : Sending).result σ :=
  run_sendToViewers σ session fun σ v m => by rw [sessionAt_send]

/-- Noting a screen leaves the viewers. -/
theorem viewers_noteScreen (σ : Server) (session o : SessionRef) (json : Option Json) :
    ((σ.noteScreen session json).sessionAt o).viewers = (σ.sessionAt o).viewers := by
  unfold noteScreen
  split
  · split
    · exact modifySession_keeps σ session o Session.viewers rfl
    · rfl
  · rfl

/-- An object of an agent sends its scales, and then the copies. -/
theorem agentSending_of_ne_null {msg : Json} (h : msg ≠ .null) :
    σ.agentSending ws session (some msg) =
      (if msg.announcesScreen then σ.screenSending session msg else {}).andThen
        { frames := broadcast (σ.sessionAt session).viewers.values (.forward ws (forwardCopy msg
            ((σ.noteScreen session (some msg)).sessionAt session).agentScreen)) } := by
  cases msg <;> first | rfl | exact absurd rfl h

/-- An object of a viewer reports its screen or is passed on to the agent. -/
theorem viewerSending_of_ne_null {message : Message} {msg : Json} (hjson : message.json = some msg)
    (h : msg ≠ .null) : σ.viewerSending ws session message =
      if msg.announcesClient then σ.clientSending ws session (msg.member "screen")
      else match (σ.sessionAt session).agent with
        | none => {}
        | some agent => { frames := [(agent, .input ws message)] } := by
  unfold viewerSending
  rw [hjson]
  cases msg <;> first | rfl | exact absurd rfl h

/-- The `try` block of the agent's message handler. -/
theorem run_agentMessageBody (σ : Server) (ws : ConnId) (session : SessionRef) (message : Message) :
    (agentMessageBody ws session message).run σ =
      (σ.agentSending ws session message.json).result (σ.noteScreen session message.json) := by
  unfold agentMessageBody Message.parse
  rcases hjson : message.json with _ | msg
  · rfl
  · by_cases hnull : msg = .null
    · subst hnull
      rfl
    · rw [agentSending_of_ne_null hnull, EStateM.run_bind, run_orThrow_ok]
      simp only
      rw [EStateM.run_bind, Json.property_of_ne_null hnull, run_orThrow_ok]
      simp only
      have hforward := fun τ => run_forwardCopies τ ws session msg
      by_cases hscreen : msg.announcesScreen = true
      · -- the screen is stored and the scales are sent, then the copies, unless a scale throws
        rw [if_pos hscreen]
        have hnote : σ.noteScreen session (some msg) =
            σ.modifySession session fun s => { s with agentScreen := some (screenOf msg) } := by
          simp [noteScreen, hscreen]
        rw [show Json.isText "screen_info" (msg.member "type") = true from hscreen]
        refine Sending.run_andThen (by rw [hnote]; exact run_onScreenInfo σ session msg) ?_
        rw [hforward, sessionAt_deliver, viewers_noteScreen]
      · -- any other message is copied only
        have hnote : σ.noteScreen session (some msg) = σ := by simp [noteScreen, hscreen]
        have htype : Json.isText "screen_info" (msg.member "type") = false := by
          simpa [Json.announcesScreen] using hscreen
        rw [if_neg hscreen, htype, hnote]
        simp only [Bool.false_eq_true, if_false]
        rw [hforward]
        rfl

/-- The `client_info` branch, after its two writes. -/
theorem run_onClientInfo (σ : Server) (ws : ConnId) (session : SessionRef) (msg : Json)
    (hclient : msg.announcesClient = true) :
    (onClientInfo ws session msg).run σ =
      (σ.clientSending ws session (msg.member "screen")).result
        (σ.noteClient ws session (some msg)) := by
  have hnote : σ.noteClient ws session (some msg) =
      (σ.modifyConn ws fun w => { w with
        viewerInfo := w.viewerInfo.map fun info =>
          { info with screenInfo := msg.member "screen" } }).modifySession session
        fun s => { s with clientScreens := s.clientScreens.set ws (msg.member "screen") } := by
    simp [noteClient, hclient]
  unfold onClientInfo
  simp only [EStateM.run_bind, EStateM.run_modify]
  rw [← hnote]
  have hagent : ((σ.noteClient ws session (some msg)).sessionAt session).agentScreen =
      (σ.sessionAt session).agentScreen := by
    rw [hnote, sessionAt_modifySession_self]
    rfl
  -- what follows the two writes reads the agent's screen only
  generalize σ.noteClient ws session (some msg) = τ at hagent ⊢
  unfold clientSending
  rcases hscreen : msg.member "screen" with _ | screen
  · rfl
  · by_cases hnull : screen = .null
    · subst hnull
      rfl
    · simp only [Json.property_of_ne_null hnull, run_orThrow_ok, Json.toText,
        Json.printableScreen_of_ne_null hnull]
      by_cases hwidth : Json.convertible (screen.member "width") = true
      · by_cases hheight : Json.convertible (screen.member "height") = true
        · by_cases hratio : Json.convertible
              (Json.orElse (screen.member "devicePixelRatio") (.num (.ofMagnitude 1))) = true
          · simp only [hwidth, hheight, hratio, if_true, run_orThrow_ok, Bool.and_self,
              run_readState, hagent]
            cases (σ.sessionAt session).agentScreen with
            | none => rfl
            | some agentScreen =>
                simp only [scaleUpdates]
                cases hscale : calculateOptimalScale agentScreen (some screen) with
                | error e => simp [EStateM.run_bind, Sending.result]
                | ok scale => simp [EStateM.run_bind, Sending.result, Sending.andThen]
          · simp [hwidth, hheight, hratio, Sending.result]
        · simp [hwidth, hheight, Sending.result]
      · simp [hwidth, Sending.result]

/-- The message goes to the agent in the slot, if there is one. -/
theorem run_forwardInput (σ : Server) (ws : ConnId) (session : SessionRef) (message : Message) :
    (forwardInput ws session message).run σ =
      (match (σ.sessionAt session).agent with
        | none => {}
        | some agent => { frames := [(agent, .input ws message)] } : Sending).result σ := by
  unfold forwardInput
  rw [EStateM.run_bind, run_readState]
  cases (σ.sessionAt session).agent with
  | none => rfl
  | some agent => exact run_guarded_send σ agent fun _ => .input ws message

/-- The `try` block of the viewer's message handler. -/
theorem run_viewerMessageBody (σ : Server) (ws : ConnId) (session : SessionRef)
    (message : Message) : (viewerMessageBody ws session message).run σ =
      (σ.viewerSending ws session message).result (σ.noteClient ws session message.json) := by
  unfold viewerMessageBody Message.parse
  rcases hjson : message.json with _ | msg
  · simp only [viewerSending, hjson]
    rfl
  · by_cases hnull : msg = .null
    · subst hnull
      simp only [viewerSending, hjson]
      rfl
    · rw [viewerSending_of_ne_null hjson hnull, EStateM.run_bind, run_orThrow_ok]
      simp only
      rw [EStateM.run_bind, Json.property_of_ne_null hnull, run_orThrow_ok]
      simp only
      by_cases hclient : msg.announcesClient = true
      · rw [if_pos hclient, show Json.isText "client_info" (msg.member "type") = true from hclient]
        exact run_onClientInfo σ ws session msg hclient
      · have hnote : σ.noteClient ws session (some msg) = σ := by simp [noteClient, hclient]
        have htype : Json.isText "client_info" (msg.member "type") = false := by
          simpa [Json.announcesClient] using hclient
        rw [if_neg hclient, htype, hnote]
        exact run_forwardInput σ ws session message

/-! ## The step of a message -/

namespace Server

/-- The session object with its activity time set. -/
def touched (session : SessionRef) (now : ℕ) (σ : Server) : Server :=
  σ.modifySession session fun s => { s with lastActivity := now }

/-- Touching a session object changes its activity time only. -/
theorem sessionAt_touched (σ : Server) (session o : SessionRef) (now : ℕ) :
    (σ.touched session now).sessionAt o =
      { σ.sessionAt o with
        lastActivity := if o = session then now else (σ.sessionAt o).lastActivity } := by
  rw [touched, sessionAt_modifySession]
  split
  · rename_i h
    rw [h]
  · rfl

/-- Noting a screen leaves the sockets. -/
theorem conn_noteScreen (σ : Server) (session : SessionRef) (json : Option Json) (now : ℕ) :
    ((σ.touched session now).noteScreen session json).conn = σ.conn := by
  unfold noteScreen
  split
  · split <;> rfl
  · rfl

/-- A viewer's message writes the information about the viewer on its socket, and nothing else. -/
theorem noteClient_keeps {α : Type} (g : Conn → α)
    (hkeeps : ∀ (w : Conn) viewerInfo, g { w with viewerInfo := viewerInfo } = g w) (σ : Server)
    (ws : ConnId) (session : SessionRef) (json : Option Json) (now : ℕ) (c : ConnId) :
    g (((σ.touched session now).noteClient ws session json).conn c) = g (σ.conn c) := by
  unfold noteClient
  split
  · split
    · rw [conn_modifySession]
      exact modifyConn_keeps _ ws c g (hkeeps _ _)
    · rfl
  · rfl

/-- Noting a viewer's screen sends nothing. -/
theorem sent_noteClient (σ : Server) (ws : ConnId) (session : SessionRef) (json : Option Json)
    (now : ℕ) (c : ConnId) :
    (((σ.touched session now).noteClient ws session json).conn c).sent = (σ.conn c).sent :=
  noteClient_keeps Conn.sent (fun _ _ => rfl) σ ws session json now c

/-- Noting a viewer's screen leaves the states of the sockets. -/
theorem readyState_noteClient (σ : Server) (ws : ConnId) (session : SessionRef)
    (json : Option Json) (now : ℕ) (c : ConnId) :
    (((σ.touched session now).noteClient ws session json).conn c).readyState =
      (σ.conn c).readyState :=
  noteClient_keeps Conn.readyState (fun _ _ => rfl) σ ws session json now c

/-- What an agent's message sends does not depend on the activity time. -/
theorem agentSending_touched (σ : Server) (ws : ConnId) (session : SessionRef) (json : Option Json)
    (now : ℕ) : (σ.touched session now).agentSending ws session json =
      σ.agentSending ws session json := by
  have hscreens : (σ.touched session now).openScreens session = σ.openScreens session := by
    rw [openScreens, sessionAt_touched]
    rfl
  unfold agentSending screenSending noteScreen
  rw [hscreens, sessionAt_touched]
  rcases json with _ | msg
  · rfl
  · by_cases hscreen : msg.announcesScreen = true
    · simp only [hscreen, if_true, sessionAt_modifySession_self]
    · simp only [hscreen, if_false, sessionAt_touched, Bool.false_eq_true]

/-- What a viewer's message sends does not depend on the activity time. -/
theorem viewerSending_touched (σ : Server) (ws : ConnId) (session : SessionRef) (message : Message)
    (now : ℕ) : (σ.touched session now).viewerSending ws session message =
      σ.viewerSending ws session message := by
  unfold viewerSending clientSending
  rw [sessionAt_touched]

end Server

section Step

variable (hwf : σ.WellFormed) {sessionId : SessionId} {viewerId : String}

include hwf

/-- A message of an agent. -/
theorem step_agentMessage (hagent : (σ.conn ws).acceptance = some (.agent sessionId session))
    (message : Message) (now : ℕ) :
    σ.step (.message ws message now) =
      ((σ.touched session now).noteScreen session message.json).deliver
        (σ.agentSending ws session message.json).frames := by
  show settle ((emit ws (Listener.onMessage ws message now)).run σ) = _
  rw [run_emit_onMessage (hwf.listeners_of_acceptance hagent)]
  simp only [agentMessage]
  rw [EStateM.run_bind, run_touch]
  simp only
  -- the `catch` block keeps the state in which the exception was thrown
  rw [run_swallow, run_agentMessageBody, Sending.finalState_result]
  show Server.deliver _ _ = _
  rw [← agentSending_touched σ ws session message.json now]
  rfl

/-- A message of a viewer. -/
theorem step_viewerMessage
    (hviewer : (σ.conn ws).acceptance = some (.viewer sessionId session viewerId))
    (message : Message) (now : ℕ) :
    σ.step (.message ws message now) =
      ((σ.touched session now).noteClient ws session message.json).deliver
        (σ.viewerSending ws session message).frames := by
  show settle ((emit ws (Listener.onMessage ws message now)).run σ) = _
  rw [run_emit_onMessage (hwf.listeners_of_acceptance hviewer)]
  simp only [viewerMessage]
  rw [EStateM.run_bind, run_touch]
  simp only
  rw [run_swallow, run_viewerMessageBody, Sending.finalState_result]
  show Server.deliver _ _ = _
  rw [← viewerSending_touched σ ws session message now]
  rfl

/-- A message on a socket that was turned away. -/
theorem step_message_of_none (hnone : (σ.conn ws).acceptance = none) (message : Message) (now : ℕ) :
    σ.step (.message ws message now) = σ := by
  show settle ((emit ws (Listener.onMessage ws message now)).run σ) = σ
  rw [run_emit_nil (hwf.listeners_of_none hnone)]
  rfl

end Step

end BrowCast
