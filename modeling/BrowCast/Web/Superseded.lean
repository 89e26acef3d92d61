import BrowCast.Web.Viewer

/-! # Superseded sockets

A socket is superseded when `ws` stores another one. Its handlers still run, and work on the global
`ws` and on the page: an open event sends on the new socket, a close event closes it. This file says
exactly which events of superseded sockets do nothing. -/

namespace BrowCast.Web

/-- The socket an event is fired on. -/
def PageEvent.socket : PageEvent → Option SocketId
  | .opened i | .message i _ | .errored i | .closed i => some i
  | _ => none

/-- The socket stored in `ws` was neither closed nor sent on, the canvas was not drawn on, nor an
image started that will be, and the display stayed as it was. -/
structure Untouched (p p' : Page) : Prop where
  ws : p'.wsState = p.wsState
  sent : p'.sent = p.sent
  paints : p'.canvas.paints = p.canvas.paints
  images : p'.images = p.images
  display : p'.display = p.display

/-- The event, if it is one of a superseded socket, touches nothing. -/
def Inert (p : Page) (e : PageEvent) : Prop :=
  ∀ i, e.socket = some i → p.ws ≠ some i → Untouched p (p.step e)

/-- A message of a superseded socket starts no image, and says what is displayed already. -/
def HarmlessMessage (status : Status) (message : Message) : Prop :=
  match Page.readMessage message with
  | .error _ => status = ⟨"Error receiving data.", .muted⟩
  | .ok (.frame _ _ _) => False
  | .ok (.agentStatus true) => status = ⟨"Agent Connected", .success⟩
  | .ok (.agentStatus false) => status = ⟨"Agent Disconnected", .warning⟩
  | .ok .unknown => True

/-- What the events of superseded sockets have to be: an open event with no open socket in `ws` and
the connected state displayed, a message that is harmless, an error already displayed, and no close
event. -/
def Harmless (p : Page) : PageEvent → Prop
  | .opened i => p.ws ≠ some i →
      p.wsState ≠ some .open ∧ p.display.status = ⟨"Connected!", .success⟩ ∧
        p.display.overlayHidden = true ∧ p.display.controlsHidden = false
  | .message i message => p.ws ≠ some i → HarmlessMessage p.display.status message
  | .errored i => p.ws ≠ some i →
      p.display.status = ⟨"Connection Error. Check server status or session ID.", .muted⟩ ∧
        p.display.overlayHidden = true ∧
        ∀ socket, p.sockets[i]? = some socket → socket.serverIp = "localhost" →
          p.display.dialogShown = true ∧ p.display.dialogStatus = ""
  | .closed i => p.ws = some i
  | _ => True

section Steps

variable {p : Page} {i : SocketId}

/-- Changing another socket leaves the state of the one stored in `ws`. -/
theorem wsState_modifySocket (hws : p.ws ≠ some i) (f : Socket → Socket) :
    (p.modifySocket i f).wsState = p.wsState := by
  unfold Page.wsState
  cases hstored : p.ws with
  | none => simp [Page.modifySocket, hstored]
  | some j =>
      have hij : i ≠ j := fun h => hws (h ▸ hstored)
      have hstate := Page.readyState_modifySocket (p := p) (i := i) (j := j) f
      rw [if_neg hij] at hstate
      simpa [Page.modifySocket, hstored] using hstate

/-- An open event of a superseded socket. -/
theorem untouched_opened_iff (hws : p.ws ≠ some i) {socket : Socket}
    (hsocket : p.sockets[i]? = some socket) :
    Untouched p (p.step (.opened i)) ↔
      p.wsState ≠ some .open ∧ p.display.status = ⟨"Connected!", .success⟩ ∧
        p.display.overlayHidden = true ∧ p.display.controlsHidden = false := by
  have hstep : p.step (.opened i) = (p.setReadyState i .open).onopen socket.sessionId := by
    rw [Page.step, hsocket]
  -- the page that sends: its `ws` is as before
  have hstate : ((((p.setReadyState i .open).updateStatus "Connected!" "success").setOverlay
      true).setControls false).wsState = p.wsState := wsState_modifySocket hws _
  rw [hstep, Page.onopen]
  constructor
  · intro h
    have hopen : p.wsState ≠ some .open := by
      intro hopen
      obtain ⟨j, -, hsend⟩ := Page.send_of_open
        (.obj [("type", .str "viewer_ready"), ("sessionId", .str socket.sessionId)])
        (hstate.trans hopen)
      have hsent := h.sent
      rw [hsend] at hsent
      exact absurd (congrArg List.length hsent) (by simp [Page.setControls, Page.setOverlay,
        Page.updateStatus, Page.setReadyState, Page.modifySocket])
    have hdisplay := h.display
    rw [Page.send_of_not_open _ (fun h => hopen (hstate.symm.trans h))] at hdisplay
    rw [← hdisplay]
    exact ⟨hopen, rfl, rfl, rfl⟩
  · rintro ⟨hopen, hstatus, hoverlay, hcontrols⟩
    rw [Page.send_of_not_open _ (fun h => hopen (hstate.symm.trans h))]
    exact ⟨hstate, rfl, rfl, rfl, Display.ext hstatus.symm hoverlay.symm hcontrols.symm rfl rfl⟩

/-- A status message is seen unless it is there already. -/
theorem untouched_updateStatus_iff {message type : String} {status : Status}
    (hstatus : (p.updateStatus message type).display.status = status) :
    Untouched p (p.updateStatus message type) ↔ p.display.status = status := by
  constructor
  · intro h
    rw [← hstatus, h.display]
  · intro h
    exact ⟨rfl, rfl, rfl, rfl, Display.ext (hstatus.trans h.symm) rfl rfl rfl rfl⟩

/-- A message of a superseded socket. -/
theorem untouched_message_iff (message : Message) :
    Untouched p (p.step (.message i message)) ↔ HarmlessMessage p.display.status message := by
  rw [Page.step, Page.onmessage, HarmlessMessage]
  cases hread : Page.readMessage message with
  | error e => exact untouched_updateStatus_iff rfl
  | ok received =>
      cases received with
      | frame src width height =>
          refine ⟨fun h => ?_, False.elim⟩
          exact absurd (congrArg List.length h.images) (by simp)
      | agentStatus connected =>
          cases connected <;> exact untouched_updateStatus_iff rfl
      | unknown => exact ⟨fun _ => trivial, fun _ => ⟨rfl, rfl, rfl, rfl, rfl⟩⟩

/-- An error of a superseded socket. -/
theorem untouched_errored_iff (hws : p.ws ≠ some i) {socket : Socket}
    (hsocket : p.sockets[i]? = some socket) :
    Untouched p (p.step (.errored i)) ↔
      p.display.status = ⟨"Connection Error. Check server status or session ID.", .muted⟩ ∧
        p.display.overlayHidden = true ∧
        (socket.serverIp = "localhost" →
          p.display.dialogShown = true ∧ p.display.dialogStatus = "") := by
  have hstep : p.step (.errored i) = (p.setReadyState i .closed).onerror socket.serverIp := by
    rw [Page.step, hsocket]
  have hstate : (p.setReadyState i .closed).wsState = p.wsState := wsState_modifySocket hws _
  rw [hstep, Page.onerror]
  -- the handler opens the dialog on the local machine only
  by_cases hlocal : socket.serverIp = "localhost"
  · rw [if_pos hlocal]
    constructor
    · intro h
      rw [← h.display]
      exact ⟨rfl, rfl, fun _ => ⟨rfl, rfl⟩⟩
    · rintro ⟨hstatus, hoverlay, hdialog⟩
      obtain ⟨hshown, htext⟩ := hdialog hlocal
      exact ⟨hstate, rfl, rfl, rfl,
        Display.ext hstatus.symm hoverlay.symm rfl hshown.symm htext.symm⟩
  · rw [if_neg hlocal]
    constructor
    · intro h
      rw [← h.display]
      exact ⟨rfl, rfl, fun h => absurd h hlocal⟩
    · rintro ⟨hstatus, hoverlay, -⟩
      exact ⟨hstate, rfl, rfl, rfl, Display.ext hstatus.symm hoverlay.symm rfl rfl rfl⟩

/-- A close event draws on the canvas. -/
theorem not_untouched_closed : ¬ Untouched p (p.step (.closed i)) := by
  intro h
  have hpaints := h.paints
  rw [Page.step, Page.closeConnection_eq] at hpaints
  exact Nat.succ_ne_self _ hpaints

/-- An event that can happen is inert exactly when it is harmless. -/
theorem inert_iff_harmless {e : PageEvent} (he : p.Enabled e) : Inert p e ↔ Harmless p e := by
  -- of an event on the socket `i`, only `i` itself is asked about
  have hself : ∀ {i : SocketId}, e.socket = some i →
      (Inert p e ↔ (p.ws ≠ some i → Untouched p (p.step e))) := fun hi =>
    ⟨fun h => h _ hi, fun h j hj => Option.some.inj (hi.symm.trans hj) ▸ h⟩
  cases e with
  | opened i =>
      obtain ⟨socket, hsocket, -⟩ := Page.exists_step_opened he
      rw [hself rfl]
      exact forall_congr' fun hws => untouched_opened_iff hws hsocket
  | message i message =>
      rw [hself rfl]
      exact forall_congr' fun _ => untouched_message_iff message
  | errored i =>
      obtain ⟨socket, hsocket, -⟩ := Page.exists_step_errored he
      rw [hself rfl]
      refine forall_congr' fun hws => (untouched_errored_iff hws hsocket).trans ?_
      simp [hsocket]
  | closed i =>
      rw [hself rfl]
      exact ⟨fun h => not_not.mp fun hws => not_untouched_closed (h hws),
        fun h hws => absurd h hws⟩
  | connect _ _ _ | dialogConnect _ _ _ | disconnect | closing _ | loaded _ _ _ | input _ _ =>
      exact ⟨fun _ => trivial, fun _ i hi => (by cases hi)⟩

end Steps

/-- **Superseded sockets are inert** in a run exactly when their events are harmless. -/
theorem steps_inert_iff_harmless {https : Bool} {es : List PageEvent}
    (hrun : (viewer https).IsRun es) :
    (viewer https).Steps Inert (viewer https).start es ↔
      (viewer https).Steps Harmless (viewer https).start es := by
  have hstates : (viewer https).States (fun _ => True) (viewer https).start es :=
    (viewer https).states_of_invariant trivial (fun _ _ _ _ => trivial) hrun
  exact GuardedMachine.States.steps_congr _ (fun _ _ _ he => inert_iff_harmless he) hstates hrun

/-! ## Waiting for the close events

When the user connects only after the close events of all earlier sockets, nothing happens on a
superseded socket any more. -/

/-- Connecting waits for the close events of all sockets. -/
def Waits (p : Page) : PageEvent → Prop
  | .connect _ _ _ | .dialogConnect _ _ _ => ∀ socket ∈ p.sockets, socket.closeFired = true
  | _ => True

/-- The invariant: a socket whose close event has fired is closed, and that of every superseded
socket has fired. -/
structure Retired (p : Page) : Prop where
  closed : ∀ (i : SocketId) (socket : Socket), p.sockets[i]? = some socket →
    socket.closeFired = true → socket.readyState = .closed
  superseded : ∀ (i : SocketId) (socket : Socket), p.sockets[i]? = some socket →
    p.ws ≠ some i → socket.closeFired = true

section Waiting

variable {p : Page} {i : SocketId}

/-- The invariant reads the sockets and `ws` only. -/
theorem Retired.congr {p' : Page} (h : Retired p) (hsockets : p'.sockets = p.sockets)
    (hws : p'.ws = p.ws) : Retired p' := by
  refine ⟨fun i socket hsocket => ?_, fun i socket hsocket hi => ?_⟩
  · exact h.closed i socket (hsockets ▸ hsocket)
  · exact h.superseded i socket (hsockets ▸ hsocket) (hws ▸ hi)

/-- Changing a socket keeps the invariant if the socket stays closed once its close event has
fired, and that event is not undone. -/
theorem Retired.modifySocket (h : Retired p) {f : Socket → Socket}
    (hf : ∀ socket, p.sockets[i]? = some socket →
      ((f socket).closeFired = true → (f socket).readyState = .closed) ∧
        (socket.closeFired = true → (f socket).closeFired = true)) :
    Retired (p.modifySocket i f) := by
  have hget : ∀ j socket, (p.modifySocket i f).sockets[j]? = some socket →
      ∃ old, p.sockets[j]? = some old ∧ socket = if i = j then f old else old := by
    intro j socket hsocket
    rw [Page.modifySocket, List.getElem?_modify] at hsocket
    obtain ⟨old, hold, hsame⟩ := Option.map_eq_some_iff.mp hsocket
    exact ⟨old, hold, hsame.symm⟩
  constructor
  · -- the changed socket is as asked for, and the others are as before
    intro j socket hsocket hfired
    obtain ⟨old, hold, hsame⟩ := hget j socket hsocket
    by_cases hij : i = j
    · subst hij
      rw [if_pos rfl] at hsame
      subst hsame
      exact (hf old hold).1 hfired
    · rw [if_neg hij] at hsame
      exact h.closed j socket (hsame ▸ hold) hfired
  · intro j socket hsocket hj
    obtain ⟨old, hold, hsame⟩ := hget j socket hsocket
    have hfired := h.superseded j old hold hj
    by_cases hij : i = j
    · subst hij
      rw [hsame, if_pos rfl]
      exact (hf old hold).2 hfired
    · rw [hsame, if_neg hij]
      exact hfired

/-- A socket that is not closed, or is to be closed, can be given that state. -/
theorem Retired.setReadyState (h : Retired p) {r : ReadyState}
    (hstate : r = .closed ∨ p.readyState i ≠ some .closed) : Retired (p.setReadyState i r) := by
  refine h.modifySocket fun socket hsocket => ⟨fun hfired => ?_, id⟩
  rcases hstate with rfl | hopen
  · rfl
  · refine absurd ?_ hopen
    rw [Page.readyState, hsocket, Option.map_some, h.closed i socket hsocket hfired]

/-- A retired socket may be closed. -/
theorem Retired.markClosed (h : Retired p) : Retired (p.markClosed i) :=
  h.modifySocket fun _ _ => ⟨fun _ => rfl, fun _ => rfl⟩

/-- Closing the current socket leaves the others retired. -/
theorem Retired.closeIfOpen (h : Retired p) : Retired p.closeIfOpen := by
  unfold Page.closeIfOpen
  split
  · exact h
  · split
    · next hopen => exact h.setReadyState (Or.inr (by rw [hopen]; simp))
    · exact h

/-- So does disconnecting. -/
theorem Retired.closeConnection (h : Retired p) : Retired p.closeConnection := by
  obtain ⟨sockets, hsockets⟩ := Page.exists_closeIfOpen_eq p
  have hclosed := h.closeIfOpen
  rw [Page.closeConnection_eq]
  rw [hsockets] at hclosed ⊢
  exact hclosed.congr rfl rfl

/-- A new socket is stored in `ws` when the close events of all others have fired. -/
theorem Retired.create (h : Retired p) (hwaits : ∀ socket ∈ p.sockets, socket.closeFired = true)
    {p' : Page} {new : Socket} (hnew : new.closeFired = false)
    (hsockets : p'.sockets = p.sockets ++ [new]) (hws : p'.ws = some p.sockets.length) :
    Retired p' := by
  have hold : ∀ i socket, p'.sockets[i]? = some socket → i ≠ p.sockets.length →
      p.sockets[i]? = some socket := by
    intro i socket hsocket hi
    obtain ⟨hlt, -⟩ := List.getElem?_eq_some_iff.mp hsocket
    rw [hsockets, List.length_append, List.length_singleton] at hlt
    rwa [hsockets, List.getElem?_append_left (by omega)] at hsocket
  constructor
  · intro i socket hsocket hfired
    by_cases hi : i = p.sockets.length
    · rw [hsockets, hi, List.getElem?_concat_length] at hsocket
      rw [← Option.some.inj hsocket, hnew] at hfired
      cases hfired
    · exact h.closed i socket (hold i socket hsocket hi) hfired
  · intro i socket hsocket hi
    have hne : i ≠ p.sockets.length := fun hlast => hi (hlast ▸ hws)
    exact hwaits socket (List.mem_of_getElem? (hold i socket hsocket hne))

/-- Connecting, when the close events of all sockets have fired. -/
theorem Retired.connectWebSocket (h : Retired p) {serverIp sessionIdInput : String}
    {accepted : Bool} (hwaits : ∀ socket ∈ p.sockets, socket.closeFired = true) :
    Retired (p.connectWebSocket serverIp sessionIdInput accepted) := by
  have hclose : p.closeIfOpen = p := by
    unfold Page.closeIfOpen
    split
    · rfl
    · split
      · next hopen =>
          obtain ⟨socket, hsocket, hstate⟩ := Option.map_eq_some_iff.mp hopen
          have hfired := hwaits socket (List.mem_of_getElem? hsocket)
          rw [h.closed _ socket hsocket hfired] at hstate
          cases hstate
      · rfl
  unfold Page.connectWebSocket
  rw [hclose]
  by_cases hempty : Page.trim sessionIdInput = ""
  · rw [if_pos hempty]
    exact h.congr rfl rfl
  · rw [if_neg hempty]
    cases accepted with
    | false => exact h.congr rfl rfl
    | true => exact h.create hwaits rfl rfl rfl

/-- **One step** keeps the invariant when connecting waits. -/
theorem Retired.step (h : Retired p) {e : PageEvent} (he : p.Enabled e) (hwaits : Waits p e) :
    Retired (p.step e) := by
  cases e with
  | connect serverIp sessionIdInput accepted => exact h.connectWebSocket hwaits
  | dialogConnect ipInput sessionIdInput accepted =>
      have hdialog : ∀ text, Retired (p.setDialogStatus text) := fun _ => h.congr rfl rfl
      -- the dialog sets its status, and may connect and hide
      show Retired (p.dialogConnect ipInput sessionIdInput accepted)
      obtain hempty | ⟨-, connected, hconnected, hshown | hhidden⟩ :=
        Page.dialogConnect_cases p ipInput sessionIdInput accepted
      · rw [hempty]
        exact hdialog _
      · rw [hshown, hconnected]
        exact (hdialog "").connectWebSocket hwaits
      · rw [hhidden]
        have hretired : Retired connected := hconnected ▸ (hdialog "").connectWebSocket hwaits
        exact hretired.congr rfl rfl
  | disconnect => exact h.closeConnection
  | opened i =>
      obtain ⟨socket, -, hstep⟩ := Page.exists_step_opened he
      obtain ⟨sent, honopen⟩ := Page.exists_onopen_eq (p.setReadyState i .open) socket.sessionId
      -- a connection that opens was not closed before
      have hconnecting : p.readyState i ≠ some .closed := by
        rw [show p.readyState i = some .connecting from he]
        simp
      rw [hstep, honopen]
      exact (h.setReadyState (Or.inr hconnecting)).congr rfl rfl
  | message i message =>
      show Retired (p.onmessage i message)
      obtain ⟨display, hdisplay⟩ | ⟨img, -, -, himg⟩ := Page.exists_onmessage_eq p i message
      · rw [hdisplay]
        exact h.congr rfl rfl
      · rw [himg]
        exact h.congr rfl rfl
  | closing i =>
      refine h.setReadyState (Or.inr ?_)
      rw [show p.readyState i = some .open from he]
      simp
  | errored i =>
      obtain ⟨socket, -, hstep⟩ := Page.exists_step_errored he
      obtain ⟨display, hdisplay⟩ := Page.exists_onerror_eq (p.setReadyState i .closed)
        socket.serverIp
      rw [hstep, hdisplay]
      exact (h.setReadyState (Or.inl rfl)).congr rfl rfl
  | closed i => exact h.markClosed.closeConnection
  | loaded n width height =>
      obtain ⟨img, -, hstep⟩ := Page.exists_step_loaded he
      rw [hstep]
      exact h.congr rfl rfl
  | input event rect =>
      obtain ⟨sent, hsent⟩ := Page.exists_sendInput_eq p event.inputType event.data rect
      show Retired (p.sendInput event.inputType event.data rect)
      rw [hsent]
      exact h.congr rfl rfl

/-- A superseded socket is closed. -/
theorem Retired.readyState (h : Retired p) {socket : Socket} (hsocket : p.sockets[i]? = some socket)
    (hi : p.ws ≠ some i) : p.readyState i = some .closed := by
  rw [Page.readyState, hsocket, Option.map_some,
    h.closed i socket hsocket (h.superseded i socket hsocket hi)]

/-- Nothing can happen on a superseded socket whose close event has fired. -/
theorem Retired.harmless (h : Retired p) {e : PageEvent} (he : p.Enabled e) : Harmless p e := by
  cases e with
  | opened i =>
      intro hi
      obtain ⟨socket, hsocket, -⟩ := Page.exists_step_opened he
      rw [Page.Enabled, h.readyState hsocket hi] at he
      cases he
  | message i message =>
      intro hi
      obtain ⟨socket, hsocket, -⟩ := Option.map_eq_some_iff.mp he
      rw [Page.Enabled, h.readyState hsocket hi] at he
      cases he
  | errored i =>
      intro hi
      obtain ⟨socket, hsocket, -⟩ := Page.exists_step_errored he
      exact absurd (h.readyState hsocket hi) he.2
  | closed i =>
      by_contra hi
      obtain ⟨socket, hsocket, hfired⟩ := Option.map_eq_some_iff.mp he
      rw [h.superseded i socket hsocket hi] at hfired
      cases hfired
  | connect _ _ _ | dialogConnect _ _ _ | disconnect | closing _ | loaded _ _ _ | input _ _ =>
      exact trivial

end Waiting

/-- **Waiting is enough**: when connecting waits for the close events of all sockets, the events of
superseded sockets are harmless. -/
theorem steps_harmless_of_waits {https : Bool} {es : List PageEvent}
    (hrun : (viewer https).IsRun es)
    (hwaits : (viewer https).Steps Waits (viewer https).start es) :
    (viewer https).Steps Harmless (viewer https).start es := by
  have hstart : Retired (viewer https).start :=
    ⟨fun _ _ h => (by simp [viewer] at h), fun _ _ h => (by simp [viewer] at h)⟩
  have hstates :=
    (viewer https).states_of_steps (fun _ _ h he hC => h.step he hC) hstart hrun hwaits
  exact hstates.steps _ (fun _ _ h he => h.harmless he) hrun

/-! ## Two connections -/

/-- The page connects twice. The first socket opens when the second one is closing already, and
receives a message of a type the page does not know. -/
def lateOpen : List PageEvent :=
  [.connect "localhost" "a" true, .connect "localhost" "b" true, .opened 1, .closing 1, .opened 0,
    .message 0 ⟨"\x7b\"type\":\"set_scale\"\x7d", some (.obj [("type", .str "set_scale")])⟩]

/-- The close event of the first socket comes when the second one is open. -/
def lateClose : List PageEvent :=
  [.connect "localhost" "a" true, .opened 0, .connect "localhost" "b" true, .opened 1, .closed 0]

/-- The late open event and the message touch nothing. -/
theorem steps_inert_lateOpen :
    (viewer false).Steps Inert (viewer false).start lateOpen := by
  refine (steps_inert_iff_harmless (by decide +kernel)).mpr ?_
  refine ⟨trivial, trivial, fun h => absurd ?_ h, trivial, fun _ => ?_, fun _ => ?_, trivial⟩
  · show Page.ws _ = some 1
    decide +kernel
  · decide +kernel
  · trivial

/-- The late close event closes the new socket. -/
theorem not_inert_lateClose :
    (viewer false).IsRun lateClose ∧
      ((viewer false).after (viewer false).start lateClose).readyState 1 = some .closing ∧
      ¬ (viewer false).Steps Inert (viewer false).start lateClose := by
  refine ⟨by decide +kernel, by decide +kernel, ?_⟩
  rintro ⟨-, -, -, -, hclose, -⟩
  exact not_untouched_closed (hclose 0 rfl (by decide +kernel))

end BrowCast.Web
