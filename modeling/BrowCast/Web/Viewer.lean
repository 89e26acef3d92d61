import BrowCast.Web.ViewerInput
import BrowCast.Runs.GuardedMachine

/-! # Runs of the viewer

The page as a machine. The user connects, disconnects and makes input events; the browser opens
sockets, delivers their messages, errors and close events, and fires the load events of images, in
any order that sockets and images allow: a socket opens once, receives messages while it is open
only, and fires its close event once. -/

namespace BrowCast.Web

/-- What can happen to the page. -/
inductive PageEvent where
  /-- `connectWebSocket`, with the address and the text of the session id field; `accepted` says
  that the browser accepts the URL. -/
  | connect (serverIp sessionIdInput : String) (accepted : Bool)
  /-- The button of the dialog, with the text of its field. -/
  | dialogConnect (ipInput sessionIdInput : String) (accepted : Bool)
  /-- `closeConnection`, by the button. -/
  | disconnect
  | opened (i : SocketId)
  | message (i : SocketId) (message : Message)
  /-- The server starts closing the socket. -/
  | closing (i : SocketId)
  | errored (i : SocketId)
  | closed (i : SocketId)
  /-- The `n`-th of the loading images has loaded, and is `width` by `height` pixels. -/
  | loaded (n width height : ℕ)
  /-- An event of the mouse or the keyboard, with the place of the canvas at that moment. -/
  | input (event : DomEvent) (rect : DomRect)

namespace Page

variable (p : Page)

/-- When an event can happen. -/
def Enabled : PageEvent → Prop
  | .connect _ _ _ | .disconnect | .input _ _ => True
  | .dialogConnect _ _ _ => p.display.dialogShown = true
  | .opened i => p.readyState i = some .connecting
  | .message i _ | .closing i => p.readyState i = some .open
  | .errored i => p.readyState i ≠ none ∧ p.readyState i ≠ some .closed
  | .closed i => p.sockets[i]?.map (·.closeFired) = some false
  | .loaded n _ _ => n < p.images.length

instance (e : PageEvent) : Decidable (p.Enabled e) := by
  cases e <;> unfold Enabled <;> infer_instance

/-- The socket is closed, and its close event fired. -/
def markClosed (i : SocketId) : Page :=
  p.modifySocket i fun socket => { socket with readyState := .closed, closeFired := true }

/-- The `n`-th of the loading images is no longer loading. -/
def dropImage (n : ℕ) : Page := { p with images := p.images.eraseIdx n }

/-- The page after an event. -/
def step : PageEvent → Page
  | .connect serverIp sessionIdInput accepted =>
      p.connectWebSocket serverIp sessionIdInput accepted
  | .dialogConnect ipInput sessionIdInput accepted =>
      p.dialogConnect ipInput sessionIdInput accepted
  | .disconnect => p.closeConnection
  | .opened i =>
      match p.sockets[i]? with
      | none => p
      | some socket => (p.setReadyState i .open).onopen socket.sessionId
  | .message i message => p.onmessage i message
  | .closing i => p.setReadyState i .closing
  | .errored i =>
      match p.sockets[i]? with
      | none => p
      | some socket => (p.setReadyState i .closed).onerror socket.serverIp
  | .closed i => (p.markClosed i).closeConnection
  | .loaded n width height =>
      match p.images[n]? with
      | none => p
      | some img => (p.dropImage n).onload img width height
  | .input event rect => p.sendInput event.inputType event.data rect

end Page

/-- The viewer, loaded over `http` or `https`. -/
def viewer (https : Bool) : GuardedMachine Page PageEvent where
  start := { https := https }
  Enabled := Page.Enabled
  step := Page.step

instance (https : Bool) (es : List PageEvent) : Decidable ((viewer https).IsRun es) :=
  inferInstanceAs (Decidable ((viewer https).Steps Page.Enabled (viewer https).start es))

/-- A frame message. -/
def frameMessage (width height : ℕ) : Message where
  data := "\x7b\"type\":\"frame\",\"image\":\"data:\",\"width\":" ++ toString width ++
    ",\"height\":" ++ toString height ++ "\x7d"
  json := some (.obj [("type", .str "frame"), ("image", .str "data:"),
    ("width", .num (.finite false width)), ("height", .num (.finite false height))])

/-! ## What the parts of a step change -/

namespace Page

variable {p : Page} {i j : SocketId}

/-- The state of a socket after one was changed. -/
theorem readyState_modifySocket (f : Socket → Socket) :
    (p.modifySocket i f).readyState j =
      if i = j then p.sockets[j]?.map fun socket => (f socket).readyState else p.readyState j := by
  unfold readyState modifySocket
  rw [List.getElem?_modify]
  by_cases h : i = j
  · simp [h, Function.comp_def]
  · simp [h]

/-- The state of a socket after one was set. -/
theorem readyState_setReadyState (r : ReadyState) :
    (p.setReadyState i r).readyState j =
      if i = j then (p.readyState j).map fun _ => r else p.readyState j := by
  rw [setReadyState, readyState_modifySocket]
  simp [readyState, Function.comp_def]

/-- The state of a socket after one was closed. -/
theorem readyState_markClosed :
    (p.markClosed i).readyState j =
      if i = j then (p.readyState j).map fun _ => .closed else p.readyState j := by
  rw [markClosed, readyState_modifySocket]
  simp [readyState, Function.comp_def]

/-- Closing an open socket makes it a closing one; the others stay. -/
theorem readyState_closeIfOpen :
    p.closeIfOpen.readyState j =
      if p.ws = some j ∧ p.readyState j = some .open then some .closing else p.readyState j := by
  unfold closeIfOpen
  cases hws : p.ws with
  | none => simp
  | some i =>
      by_cases hopen : p.readyState i = some .open
      · simp only [hopen, if_true, readyState_setReadyState]
        by_cases hij : i = j
        · subst hij
          simp [hopen]
        · simp [hij]
      · by_cases hij : i = j
        · subst hij
          simp [hopen]
        · simp [hopen, hij]

/-! An event that can happen finds its socket, or its image. -/

/-- A socket that opens runs its handler `onopen`. -/
theorem exists_step_opened (he : p.Enabled (.opened i)) :
    ∃ socket, p.sockets[i]? = some socket ∧
      p.step (.opened i) = (p.setReadyState i .open).onopen socket.sessionId := by
  obtain ⟨socket, hsocket, -⟩ := Option.map_eq_some_iff.mp he
  exact ⟨socket, hsocket, by rw [step, hsocket]⟩

/-- A socket that fails is closed and runs its handler `onerror`. -/
theorem exists_step_errored (he : p.Enabled (.errored i)) :
    ∃ socket, p.sockets[i]? = some socket ∧
      p.step (.errored i) = (p.setReadyState i .closed).onerror socket.serverIp := by
  obtain ⟨r, hr⟩ := Option.ne_none_iff_exists'.mp he.1
  obtain ⟨socket, hsocket, -⟩ := Option.map_eq_some_iff.mp hr
  exact ⟨socket, hsocket, by rw [step, hsocket]⟩

/-- An image that loads runs its handler `onload`. -/
theorem exists_step_loaded {n width height : ℕ} (he : p.Enabled (.loaded n width height)) :
    ∃ img, p.images[n]? = some img ∧
      p.step (.loaded n width height) = (p.dropImage n).onload img width height := by
  have hn : p.images[n]? = some (p.images.get ⟨n, he⟩) := List.getElem?_eq_getElem he
  exact ⟨_, hn, by rw [step, hn]⟩

/-- Closing an open socket and sending change nothing else. -/
theorem exists_closeIfOpen_eq (p : Page) :
    ∃ sockets, p.closeIfOpen = { p with sockets := sockets } := by
  unfold closeIfOpen
  split
  · exact ⟨p.sockets, rfl⟩
  · split
    · exact ⟨_, rfl⟩
    · exact ⟨p.sockets, rfl⟩

/-- Sending changes nothing but what was sent. -/
theorem exists_send_eq (p : Page) (message : Json) :
    ∃ sent, p.send message = { p with sent := sent } := by
  unfold send
  split
  · exact ⟨p.sent, rfl⟩
  · split
    · exact ⟨_, rfl⟩
    · exact ⟨p.sent, rfl⟩

/-- Sending needs an open socket in `ws`. -/
theorem send_of_open (message : Json) (hopen : p.wsState = some .open) :
    ∃ i, p.ws = some i ∧ p.send message = { p with sent := p.sent ++ [(i, message)] } := by
  unfold wsState at hopen
  obtain ⟨i, hws, hstate⟩ := Option.bind_eq_some_iff.mp hopen
  refine ⟨i, hws, ?_⟩
  simp only [send, hws, hstate, if_true]

/-- Nothing is sent while the current socket is not open. -/
theorem send_of_not_open (message : Json) (hopen : p.wsState ≠ some .open) :
    p.send message = p := by
  unfold wsState at hopen
  unfold send
  cases hws : p.ws with
  | none => rfl
  | some i =>
      rw [hws] at hopen
      exact if_neg hopen

/-- `onopen` changes what is displayed and sends. -/
theorem exists_onopen_eq (p : Page) (sessionId : String) :
    ∃ sent, p.onopen sessionId = { p with
      display := { p.display with
        status := ⟨"Connected!", .success⟩
        overlayHidden := true
        controlsHidden := false }
      sent := sent } := by
  obtain ⟨sent, hsent⟩ := exists_send_eq
    (((p.updateStatus "Connected!" "success").setOverlay true).setControls false)
    (.obj [("type", .str "viewer_ready"), ("sessionId", .str sessionId)])
  exact ⟨sent, hsent⟩

/-- `onerror` changes what is displayed. -/
theorem exists_onerror_eq (p : Page) (serverIp : String) :
    ∃ display, p.onerror serverIp = { p with display := display } := by
  unfold onerror
  split
  · exact ⟨_, rfl⟩
  · exact ⟨_, rfl⟩

/-- `sendInput` only sends. -/
theorem exists_sendInput_eq (p : Page) (inputType : String) (data : List (String × Json))
    (rect : DomRect) : ∃ sent, p.sendInput inputType data rect = { p with sent := sent } := by
  unfold sendInput
  split
  · exact exists_send_eq p _
  · exact ⟨p.sent, rfl⟩

/-- A message changes the display, or starts an image. -/
theorem exists_onmessage_eq (p : Page) (i : SocketId) (message : Message) :
    (∃ display, p.onmessage i message = { p with display := display }) ∨
      ∃ img, img.number = p.received.length ∧ img.late = p.disconnected ∧
        p.onmessage i message =
          { p with images := p.images ++ [img], received := p.received ++ [img] } := by
  unfold onmessage
  split
  · exact Or.inl ⟨_, rfl⟩
  · exact Or.inr ⟨_, rfl, rfl, rfl⟩
  · exact Or.inl ⟨_, rfl⟩
  · exact Or.inl ⟨_, rfl⟩
  · exact Or.inl ⟨p.display, rfl⟩

/-- Closing the connection closes an open socket, and is seen in the display, the canvas and the
record. -/
theorem closeConnection_eq (p : Page) :
    p.closeConnection = { p with
      sockets := p.closeIfOpen.sockets
      display := { p.display with
        status := ⟨"Disconnected", .muted⟩
        overlayHidden := true
        controlsHidden := true }
      canvas := ⟨800, 600, .disconnected, p.canvas.paints + 1⟩
      disconnected := true } := by
  obtain ⟨sockets, hsockets⟩ := exists_closeIfOpen_eq p
  rw [closeConnection, hsockets]
  rfl

/-- Disconnecting closes what closing does. -/
theorem readyState_closeConnection :
    p.closeConnection.readyState j = p.closeIfOpen.readyState j := by
  rw [closeConnection_eq]
  rfl

/-- The dialog refuses an empty address, or connects to the one given; then it may be hidden. -/
theorem dialogConnect_cases (p : Page) (ipInput sessionIdInput : String) (accepted : Bool) :
    p.dialogConnect ipInput sessionIdInput accepted =
        p.setDialogStatus "IP address cannot be empty." ∨
      trim ipInput ≠ "" ∧ ∃ connected,
        connected = (p.setDialogStatus "").connectWebSocket (trim ipInput) sessionIdInput accepted ∧
          (p.dialogConnect ipInput sessionIdInput accepted = connected ∨
            p.dialogConnect ipInput sessionIdInput accepted = connected.hideDialog) := by
  unfold dialogConnect
  by_cases hempty : trim ipInput = ""
  · rw [if_pos hempty]
    exact Or.inl rfl
  · rw [if_neg hempty]
    refine Or.inr ⟨hempty, _, rfl, ?_⟩
    simp only
    split
    · exact Or.inr rfl
    · exact Or.inl rfl

/-- Connecting changes the sockets, the display and the record. -/
theorem exists_connectWebSocket_eq (p : Page) (serverIp sessionIdInput : String)
    (accepted : Bool) : ∃ sockets ws display disconnected,
      p.connectWebSocket serverIp sessionIdInput accepted = { p with
        sockets := sockets
        ws := ws
        display := display
        disconnected := disconnected } := by
  obtain ⟨sockets, hsockets⟩ := exists_closeIfOpen_eq p
  unfold connectWebSocket
  rw [hsockets]
  by_cases hempty : trim sessionIdInput = ""
  · rw [if_pos hempty]
    exact ⟨p.sockets, p.ws, _, p.disconnected, rfl⟩
  · rw [if_neg hempty]
    cases accepted <;> exact ⟨_, _, _, _, rfl⟩

/-- The dialog changes the sockets and what is displayed. -/
theorem exists_dialogConnect_eq (p : Page) (ipInput sessionIdInput : String) (accepted : Bool) :
    ∃ sockets ws display disconnected,
      p.dialogConnect ipInput sessionIdInput accepted = { p with
        sockets := sockets
        ws := ws
        display := display
        disconnected := disconnected } := by
  obtain ⟨sockets, ws, display, disconnected, hconnect⟩ := exists_connectWebSocket_eq
    (p.setDialogStatus "") (trim ipInput) sessionIdInput accepted
  obtain hempty | ⟨-, connected, hconnected, hshown | hhidden⟩ :=
    dialogConnect_cases p ipInput sessionIdInput accepted
  · rw [hempty]
    exact ⟨p.sockets, p.ws, _, p.disconnected, rfl⟩
  · rw [hshown, hconnected, hconnect]
    exact ⟨sockets, ws, display, disconnected, rfl⟩
  · rw [hhidden, hconnected, hconnect]
    exact ⟨sockets, ws, _, disconnected, rfl⟩

/-- **What a step changes.** Messages and load events apart, a step leaves the frames and the
dimensions; it draws on the canvas only to say that the connection is closed; and it sends only for
open events and input events. -/
theorem exists_step_eq {e : PageEvent} (he : p.Enabled e) (hmessage : ∀ i m, e ≠ .message i m)
    (hloaded : ∀ n w h, e ≠ .loaded n w h) :
    ∃ sockets ws canvas display sent disconnected,
      (canvas = p.canvas ∨ canvas = ⟨800, 600, .disconnected, p.canvas.paints + 1⟩) ∧
      ((∀ i, e ≠ .opened i) → (∀ event rect, e ≠ .input event rect) → sent = p.sent) ∧
      p.step e = { p with
        sockets := sockets
        ws := ws
        canvas := canvas
        display := display
        sent := sent
        disconnected := disconnected } := by
  cases e with
  | connect serverIp sessionIdInput accepted =>
      obtain ⟨sockets, ws, display, disconnected, hstep⟩ :=
        exists_connectWebSocket_eq p serverIp sessionIdInput accepted
      exact ⟨sockets, ws, p.canvas, display, p.sent, disconnected, Or.inl rfl, fun _ _ => rfl,
        hstep⟩
  | dialogConnect ipInput sessionIdInput accepted =>
      obtain ⟨sockets, ws, display, disconnected, hstep⟩ :=
        exists_dialogConnect_eq p ipInput sessionIdInput accepted
      exact ⟨sockets, ws, p.canvas, display, p.sent, disconnected, Or.inl rfl, fun _ _ => rfl,
        hstep⟩
  | disconnect =>
      exact ⟨_, p.ws, _, _, p.sent, true, Or.inr rfl, fun _ _ => rfl, closeConnection_eq p⟩
  | opened i =>
      obtain ⟨socket, -, hstep⟩ := exists_step_opened he
      obtain ⟨sent, honopen⟩ := exists_onopen_eq (p.setReadyState i .open) socket.sessionId
      exact ⟨_, p.ws, p.canvas, _, sent, p.disconnected, Or.inl rfl,
        fun hopened _ => absurd rfl (hopened i), hstep.trans honopen⟩
  | message i m => exact absurd rfl (hmessage i m)
  | closing i => exact ⟨_, p.ws, p.canvas, p.display, p.sent, p.disconnected, Or.inl rfl,
      fun _ _ => rfl, rfl⟩
  | errored i =>
      obtain ⟨socket, -, hstep⟩ := exists_step_errored he
      obtain ⟨display, hdisplay⟩ := exists_onerror_eq (p.setReadyState i .closed) socket.serverIp
      exact ⟨_, p.ws, p.canvas, display, p.sent, p.disconnected, Or.inl rfl, fun _ _ => rfl,
        hstep.trans hdisplay⟩
  | closed i =>
      exact ⟨_, p.ws, _, _, p.sent, true, Or.inr rfl, fun _ _ => rfl,
        closeConnection_eq (p.markClosed i)⟩
  | loaded n w h => exact absurd rfl (hloaded n w h)
  | input event rect =>
      obtain ⟨sent, hsent⟩ := exists_sendInput_eq p event.inputType event.data rect
      exact ⟨p.sockets, p.ws, p.canvas, p.display, sent, p.disconnected, Or.inl rfl,
        fun _ hinput => absurd rfl (hinput event rect), hsent⟩

/-! ## The record of frames -/

/-- What is known of the frames: those that came, those that are loading, those drawn, the picture
on the canvas but for the one that says the connection is closed, and the dimensions. -/
structure SameFrames (p p' : Page) : Prop where
  received : p'.received = p.received
  images : p'.images = p.images
  drawn : p'.drawn = p.drawn
  picture : p'.canvas.picture = p.canvas.picture ∨ p'.canvas.picture = .disconnected
  originalWidth : p'.originalWidth = p.originalWidth
  originalHeight : p'.originalHeight = p.originalHeight

/-- Only messages and load events change what is known of the frames. -/
theorem sameFrames_step {e : PageEvent} (he : p.Enabled e) (hmessage : ∀ i m, e ≠ .message i m)
    (hloaded : ∀ n w h, e ≠ .loaded n w h) : SameFrames p (p.step e) := by
  obtain ⟨sockets, ws, canvas, display, sent, disconnected, hcanvas, -, hstep⟩ :=
    exists_step_eq he hmessage hloaded
  rw [hstep]
  exact ⟨rfl, rfl, rfl, hcanvas.imp (congrArg Canvas.picture) (congrArg Canvas.picture), rfl, rfl⟩

end Page

end BrowCast.Web
