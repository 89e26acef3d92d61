import BrowCast.Web.Viewer

/-! # Disconnecting

Both `connectWebSocket` and `closeConnection` close the socket stored in `ws` when it is open, and
pass over one that is still connecting: the first forgets it, the second leaves it to open later.
The page keeps to one socket, and disconnects for good, exactly when neither is called while the
stored socket is connecting. -/

namespace BrowCast.Web

/-- A socket that is connecting or open. -/
def Page.active (p : Page) (i : SocketId) : Prop :=
  p.readyState i = some .connecting ∨ p.readyState i = some .open

/-- The socket is closing or closed. -/
def Page.finished (p : Page) (i : SocketId) : Prop :=
  p.readyState i = some .closing ∨ p.readyState i = some .closed

/-- At most one socket is connecting or open; once the connection was closed, with no socket created
since, every socket is closing or closed, or will be as soon as it opens; and no frame that came
after that was drawn. -/
structure Disconnects (p : Page) : Prop where
  atMostOne : ∀ i j, p.active i → p.active j → i = j
  finished : p.disconnected = true → ∀ i < p.sockets.length,
    p.finished i ∨ p.readyState i = some .connecting ∧ (p.step (.opened i)).finished i
  notDrawn : ∀ img ∈ p.drawn, img.late = false

/-- Connecting and closing the connection wait until the socket stored in `ws` is no longer
connecting. -/
def Settled (p : Page) : PageEvent → Prop
  | .connect _ sessionIdInput accepted =>
      Page.trim sessionIdInput ≠ "" → accepted = true → p.wsState ≠ some .connecting
  | .dialogConnect ipInput sessionIdInput accepted =>
      Page.trim ipInput ≠ "" → Page.trim sessionIdInput ≠ "" → accepted = true →
        p.wsState ≠ some .connecting
  | .disconnect => p.wsState ≠ some .connecting
  | .closed i => p.ws ≠ some i → p.wsState ≠ some .connecting
  | _ => True

instance (p : Page) (e : PageEvent) : Decidable (Settled p e) :=
  match e with
  | .connect _ sessionIdInput accepted =>
      inferInstanceAs (Decidable (Page.trim sessionIdInput ≠ "" → accepted = true →
        p.wsState ≠ some .connecting))
  | .dialogConnect ipInput sessionIdInput accepted =>
      inferInstanceAs (Decidable (Page.trim ipInput ≠ "" → Page.trim sessionIdInput ≠ "" →
        accepted = true → p.wsState ≠ some .connecting))
  | .disconnect => inferInstanceAs (Decidable (p.wsState ≠ some .connecting))
  | .closed i => inferInstanceAs (Decidable (p.ws ≠ some i → p.wsState ≠ some .connecting))
  | .opened _ | .message _ _ | .closing _ | .errored _ | .loaded _ _ _ | .input _ _ =>
      .isTrue trivial

/-- The invariant: only the socket stored in `ws` is active, and none once the connection was
closed; images of frames that came after that are neither drawn nor loading. -/
structure Single (p : Page) : Prop where
  stored : ∀ i, p.active i → p.ws = some i
  inactive : p.disconnected = true → ∀ i, ¬ p.active i
  images : ∀ img ∈ p.images, img.late = false
  drawn : ∀ img ∈ p.drawn, img.late = false

section Steps

variable {p : Page} {i : SocketId}

/-- A socket that exists is active or finished. -/
theorem finished_of_not_active (hi : i < p.sockets.length) (hactive : ¬ p.active i) :
    p.finished i := by
  obtain ⟨socket, hsocket⟩ : ∃ socket, p.sockets[i]? = some socket :=
    ⟨_, List.getElem?_eq_getElem hi⟩
  have hstate : p.readyState i = some socket.readyState := by simp [Page.readyState, hsocket]
  unfold Page.active at hactive
  unfold Page.finished
  rw [hstate] at hactive ⊢
  cases h : socket.readyState <;> simp [h] at hactive ⊢

/-- With one socket that is not closed, a disconnected page stays so. -/
theorem Single.disconnects (h : Single p) : Disconnects p where
  atMostOne i j hi hj := Option.some.inj ((h.stored i hi).symm.trans (h.stored j hj))
  finished hdisconnected i hi := Or.inl (finished_of_not_active hi (h.inactive hdisconnected i))
  notDrawn := h.drawn

/-- A step that activates no socket, and leaves the rest of what the invariant reads. -/
theorem Single.mono {p' : Page} (h : Single p) (hws : p'.ws = p.ws)
    (hactive : ∀ i, p'.active i → p.active i) (hdisconnected : p'.disconnected = p.disconnected)
    (himages : p'.images = p.images) (hdrawn : p'.drawn = p.drawn) : Single p' where
  stored i hi := hws.trans (h.stored i (hactive i hi))
  inactive hclosed i hi := h.inactive (hdisconnected.symm.trans hclosed) i (hactive i hi)
  images img himg := h.images img (himages ▸ himg)
  drawn img himg := h.drawn img (hdrawn ▸ himg)

/-- Setting the state of a socket to one that is not active. -/
theorem active_of_active_setReadyState {r : ReadyState} (hr : r = .closing ∨ r = .closed)
    {j : SocketId} (hj : (p.setReadyState i r).active j) : p.active j := by
  unfold Page.active at hj ⊢
  rw [Page.readyState_setReadyState] at hj
  by_cases hij : i = j
  · rw [if_pos hij] at hj
    cases hstate : p.readyState j <;> rcases hr with rfl | rfl <;> simp [hstate] at hj
  · rwa [if_neg hij] at hj

/-- Closing makes no socket active. -/
theorem active_of_active_closeIfOpen (hi : p.closeIfOpen.active i) : p.active i := by
  unfold Page.active at hi ⊢
  rw [Page.readyState_closeIfOpen] at hi
  split at hi
  · simp at hi
  · exact hi

/-- Closing the stored socket, when it is not connecting, leaves none active. -/
theorem not_active_closeIfOpen (h : ∀ i, p.active i → p.ws = some i)
    (hws : p.wsState ≠ some .connecting) : ¬ p.closeIfOpen.active i := by
  intro hi
  have hstored := h i (active_of_active_closeIfOpen hi)
  have hstate : p.wsState = p.readyState i := by rw [Page.wsState, hstored, Option.bind_some]
  rw [hstate] at hws
  unfold Page.active at hi
  rw [Page.readyState_closeIfOpen] at hi
  split at hi
  · simp at hi
  · rename_i hopen
    exact hi.elim hws fun h => hopen ⟨hstored, h⟩

/-- Closing the connection. -/
theorem Single.closeConnection (h : ∀ i, p.active i → p.ws = some i)
    (himages : ∀ img ∈ p.images, img.late = false) (hdrawn : ∀ img ∈ p.drawn, img.late = false)
    (hws : p.wsState ≠ some .connecting) : Single p.closeConnection := by
  have hactive : ∀ i, ¬ p.closeConnection.active i := by
    intro i hi
    unfold Page.active at hi
    rw [Page.readyState_closeConnection] at hi
    exact not_active_closeIfOpen h hws hi
  rw [Page.closeConnection_eq] at hactive ⊢
  exact ⟨fun i hi => absurd hi (hactive i), fun _ => hactive, himages, hdrawn⟩

/-- The page with a new socket, in `ws`. -/
theorem active_append {socket : Socket} {q : Page}
    (hq : q.sockets = p.sockets ++ [socket]) (hi : q.active i) :
    p.active i ∨ i = p.sockets.length := by
  by_cases hold : i < p.sockets.length
  · have hstate : q.readyState i = p.readyState i := by
      rw [Page.readyState, hq, List.getElem?_append_left hold, Page.readyState]
    unfold Page.active at hi ⊢
    rw [hstate] at hi
    exact Or.inl hi
  · apply Or.inr
    by_contra hne
    have hlength : (p.sockets ++ [socket]).length ≤ i := by
      rw [List.length_append]
      exact Nat.lt_of_le_of_ne (Nat.le_of_not_lt hold) (Ne.symm hne)
    have hnone : q.readyState i = none := by
      rw [Page.readyState, hq, List.getElem?_eq_none hlength]
      rfl
    unfold Page.active at hi
    simp [hnone] at hi

/-- Connecting: the new socket is the only active one. -/
theorem Single.connectWebSocket (h : Single p) {serverIp sessionIdInput : String} {accepted : Bool}
    (hws : Page.trim sessionIdInput ≠ "" → accepted = true → p.wsState ≠ some .connecting) :
    Single (p.connectWebSocket serverIp sessionIdInput accepted) := by
  obtain ⟨sockets, hsockets⟩ := Page.exists_closeIfOpen_eq p
  have hmono : ∀ i, p.closeIfOpen.active i → p.active i := fun i => active_of_active_closeIfOpen
  unfold Page.connectWebSocket
  by_cases hempty : Page.trim sessionIdInput = ""
  · rw [if_pos hempty]
    exact h.mono rfl (fun _ hi => hi) rfl rfl rfl
  · rw [if_neg hempty]
    cases haccepted : accepted with
    | false =>
        rw [hsockets] at hmono ⊢
        exact h.mono rfl hmono rfl rfl rfl
    | true =>
        have hnone : ∀ i, ¬ p.closeIfOpen.active i := fun i =>
          not_active_closeIfOpen h.stored (hws hempty haccepted)
        rw [hsockets] at hnone ⊢
        refine ⟨fun i hi => ?_, fun hfalse => (by cases hfalse), h.images, h.drawn⟩
        rcases active_append (p := { p with sockets := sockets }) rfl hi with hold | rfl
        · exact absurd hold (hnone i)
        · rfl

/-- A socket that is connecting opens. -/
theorem Single.opened (h : Single p) (hconnecting : p.readyState i = some .connecting)
    (sessionId : String) : Single ((p.setReadyState i .open).onopen sessionId) := by
  have hactive : p.active i := Or.inl hconnecting
  have hmono : ∀ j, (p.setReadyState i .open).active j → p.active j := by
    intro j hj
    unfold Page.active at hj
    rw [Page.readyState_setReadyState] at hj
    by_cases hij : i = j
    · exact hij ▸ hactive
    · rwa [if_neg hij] at hj
  obtain ⟨sent, honopen⟩ := Page.exists_onopen_eq (p.setReadyState i .open) sessionId
  rw [honopen]
  exact h.mono rfl hmono rfl rfl rfl

/-- A message arrives on an open socket, so its frame is not late. -/
theorem Single.message (h : Single p) (hopen : p.readyState i = some .open) (message : Message) :
    Single (p.onmessage i message) := by
  have hconnected : p.disconnected = false := by
    by_contra hclosed
    exact h.inactive (by simpa using hclosed) i (Or.inr hopen)
  obtain ⟨display, hdisplay⟩ | ⟨img, -, hlate, himg⟩ := Page.exists_onmessage_eq p i message
  · rw [hdisplay]
    exact h.mono rfl (fun _ hi => hi) rfl rfl rfl
  · rw [himg]
    refine ⟨h.stored, h.inactive, fun other hother => ?_, h.drawn⟩
    rcases List.mem_append.mp hother with hold | hnew
    · exact h.images other hold
    · rw [List.mem_singleton.mp hnew, hlate]
      exact hconnected

/-- A close event: the socket is closed first, and then the connection. -/
theorem Single.closed (h : Single p) (hws : p.ws ≠ some i → p.wsState ≠ some .connecting) :
    Single (p.markClosed i).closeConnection := by
  have hactive : ∀ j, (p.markClosed i).active j → i ≠ j ∧ p.active j := by
    intro j hj
    unfold Page.active at hj
    rw [Page.readyState_markClosed] at hj
    by_cases hij : i = j
    · rw [if_pos hij] at hj
      cases hstate : p.readyState j <;> simp [hstate] at hj
    · rw [if_neg hij] at hj
      exact ⟨hij, hj⟩
  refine Single.closeConnection (fun j hj => h.stored j (hactive j hj).2) h.images h.drawn ?_
  intro hconnecting
  obtain ⟨j, hstored, hj⟩ := Option.bind_eq_some_iff.mp hconnecting
  obtain ⟨hne, -⟩ := hactive j (Or.inl hj)
  have hother : p.ws ≠ some i := fun hself => hne (Option.some.inj (hself.symm.trans hstored))
  rw [Page.readyState_markClosed, if_neg hne] at hj
  refine hws hother ?_
  rw [Page.wsState, show p.ws = some j from hstored, Option.bind_some, hj]

/-- The dialog does not matter. -/
theorem Single.hideDialog (h : Single p) : Single p.hideDialog :=
  h.mono rfl (fun _ hi => hi) rfl rfl rfl

/-- **One step** keeps the invariant when the stored socket is settled. -/
theorem Single.step (h : Single p) {e : PageEvent} (he : p.Enabled e) (hsettled : Settled p e) :
    Single (p.step e) := by
  cases e with
  | connect serverIp sessionIdInput accepted => exact h.connectWebSocket hsettled
  | dialogConnect ipInput sessionIdInput accepted =>
      have hdialog : ∀ text, Single (p.setDialogStatus text) := fun _ =>
        h.mono rfl (fun _ hi => hi) rfl rfl rfl
      show Single (p.dialogConnect ipInput sessionIdInput accepted)
      obtain hempty | ⟨hip, connected, rfl, hshown | hhidden⟩ :=
        Page.dialogConnect_cases p ipInput sessionIdInput accepted
      · rw [hempty]
        exact hdialog _
      · rw [hshown]
        exact (hdialog "").connectWebSocket (hsettled hip)
      · rw [hhidden]
        exact ((hdialog "").connectWebSocket (hsettled hip)).hideDialog
  | disconnect => exact Single.closeConnection h.stored h.images h.drawn hsettled
  | opened i =>
      obtain ⟨socket, -, hstep⟩ := Page.exists_step_opened he
      rw [hstep]
      exact h.opened he socket.sessionId
  | message i message => exact h.message he message
  | closing i =>
      exact h.mono rfl (fun _ => active_of_active_setReadyState (Or.inl rfl)) rfl rfl rfl
  | errored i =>
      obtain ⟨socket, -, hstep⟩ := Page.exists_step_errored he
      obtain ⟨display, hdisplay⟩ := Page.exists_onerror_eq (p.setReadyState i .closed)
        socket.serverIp
      rw [hstep, hdisplay]
      exact h.mono rfl (fun _ => active_of_active_setReadyState (Or.inr rfl)) rfl rfl rfl
  | closed i => exact h.closed hsettled
  | loaded n width height =>
      obtain ⟨img, hn, hstep⟩ := Page.exists_step_loaded he
      rw [hstep]
      -- an image that loads moves from those on their way to the canvas
      refine ⟨h.stored, h.inactive, fun other hother => ?_, fun other hother => ?_⟩
      · exact h.images other (List.mem_of_mem_eraseIdx hother)
      · rcases List.mem_cons.mp hother with rfl | hold
        · exact h.images other (List.mem_of_getElem? hn)
        · exact h.drawn other hold
  | input event rect =>
      obtain ⟨sent, hsent⟩ := Page.exists_sendInput_eq p event.inputType event.data rect
      show Single (p.sendInput event.inputType event.data rect)
      rw [hsent]
      exact h.mono rfl (fun _ hi => hi) rfl rfl rfl

/-! ### What goes wrong otherwise -/

/-- A socket that is connecting opens, and stays open. -/
theorem not_finished_of_connecting (hconnecting : p.readyState i = some .connecting) :
    ¬ (p.finished i ∨
      p.readyState i = some .connecting ∧ (p.step (.opened i)).finished i) := by
  rintro (hfinished | ⟨-, hfinished⟩)
  · unfold Page.finished at hfinished
    rw [hconnecting] at hfinished
    simp at hfinished
  · obtain ⟨socket, -, hstep⟩ := Page.exists_step_opened (p := p) (i := i) hconnecting
    obtain ⟨sent, honopen⟩ := Page.exists_onopen_eq (p.setReadyState i .open) socket.sessionId
    have hopen : (p.step (.opened i)).readyState i = some .open := by
      rw [hstep, honopen]
      have hset := Page.readyState_setReadyState (p := p) (i := i) (j := i) .open
      rw [if_pos rfl, hconnecting] at hset
      exact hset
    unfold Page.finished at hfinished
    rw [hopen] at hfinished
    simp at hfinished

/-- Closing the connection passes over a stored socket that is connecting. -/
theorem not_disconnects_closeConnection (hws : p.wsState = some .connecting) :
    ¬ Disconnects p.closeConnection := by
  intro h
  obtain ⟨j, hstored, hj⟩ := Option.bind_eq_some_iff.mp hws
  have hconnecting : p.closeConnection.readyState j = some .connecting := by
    rw [Page.readyState_closeConnection, Page.readyState_closeIfOpen, hj]
    simp
  have hlength : j < p.closeConnection.sockets.length := by
    obtain ⟨socket, hsocket, -⟩ := Option.map_eq_some_iff.mp hconnecting
    exact (List.getElem?_eq_some_iff.mp hsocket).1
  have hdisconnected : p.closeConnection.disconnected = true := by rw [Page.closeConnection_eq]
  exact not_finished_of_connecting hconnecting (h.finished hdisconnected j hlength)

/-- A new socket beside a stored one that is connecting. -/
theorem not_disconnects_connectWebSocket {serverIp sessionIdInput : String}
    (hsession : Page.trim sessionIdInput ≠ "") (hws : p.wsState = some .connecting) :
    ¬ Disconnects (p.connectWebSocket serverIp sessionIdInput true) := by
  intro h
  obtain ⟨j, hstored, hj⟩ := Option.bind_eq_some_iff.mp hws
  -- the stored socket is not open yet, so it is not closed
  have hold : p.closeIfOpen.readyState j = some .connecting := by
    rw [Page.readyState_closeIfOpen, hj]
    simp
  obtain ⟨socket, hsocket, hstate⟩ := Option.map_eq_some_iff.mp hold
  have hlt := (List.getElem?_eq_some_iff.mp hsocket).1
  obtain ⟨new, hsockets, hnew⟩ : ∃ new : Socket,
      (p.connectWebSocket serverIp sessionIdInput true).sockets = p.closeIfOpen.sockets ++ [new] ∧
        new.readyState = .connecting := by
    unfold Page.connectWebSocket
    rw [if_neg hsession]
    exact ⟨_, rfl, rfl⟩
  -- it and the new one are both connecting
  have hfirst : (p.connectWebSocket serverIp sessionIdInput true).active j := by
    apply Or.inl
    rw [Page.readyState, hsockets, List.getElem?_append_left hlt, hsocket]
    exact congrArg some hstate
  have hsecond : (p.connectWebSocket serverIp sessionIdInput true).active
      p.closeIfOpen.sockets.length := by
    apply Or.inl
    rw [Page.readyState, hsockets]
    simp [hnew]
  exact absurd (h.atMostOne _ _ hfirst hsecond) (Nat.ne_of_lt hlt)

/-- The dialog is not looked at. -/
theorem Disconnects.of_hideDialog (h : Disconnects p.hideDialog) : Disconnects p where
  atMostOne := h.atMostOne
  finished hdisconnected i hi := by
    by_contra hnot
    refine hnot ((h.finished hdisconnected i hi).imp id fun ⟨hconnecting, _⟩ => ?_)
    exact absurd (h.finished hdisconnected i hi) (not_finished_of_connecting hconnecting)
  notDrawn := h.notDrawn

/-- A step to a page that disconnects was taken with the stored socket settled. -/
theorem settled_of_disconnects {e : PageEvent} (h : Disconnects (p.step e)) : Settled p e := by
  cases e with
  | connect serverIp sessionIdInput accepted =>
      intro hsession haccepted hws
      subst haccepted
      exact not_disconnects_connectWebSocket hsession hws h
  | dialogConnect ipInput sessionIdInput accepted =>
      intro hip hsession haccepted hws
      subst haccepted
      -- an accepted dialog hides, which changes no connection
      have hstep : p.step (.dialogConnect ipInput sessionIdInput true) =
          ((p.setDialogStatus "").connectWebSocket (Page.trim ipInput) sessionIdInput
            true).hideDialog := by
        rw [Page.step, Page.dialogConnect, if_neg hip]
        exact if_pos (Or.inl rfl)
      rw [hstep] at h
      exact not_disconnects_connectWebSocket (p := p.setDialogStatus "") hsession hws
        h.of_hideDialog
  | disconnect => exact fun hws => not_disconnects_closeConnection hws h
  | closed i =>
      -- the close event of another socket leaves the stored one connecting
      intro hother hws
      refine not_disconnects_closeConnection (p := p.markClosed i) ?_ h
      obtain ⟨j, hstored, hj⟩ := Option.bind_eq_some_iff.mp hws
      have hne : i ≠ j := fun heq => hother (heq ▸ hstored)
      rw [Page.wsState, show (p.markClosed i).ws = some j from hstored, Option.bind_some,
        Page.readyState_markClosed, if_neg hne, hj]
  | opened _ | message _ _ | closing _ | errored _ | loaded _ _ _ | input _ _ => exact trivial

end Steps

/-- **The page disconnects** in all states of a run exactly when no step of it connects or closes
the connection while the stored socket is connecting. -/
theorem states_disconnects_iff_settled {https : Bool} {es : List PageEvent}
    (hrun : (viewer https).IsRun es) :
    (viewer https).States Disconnects (viewer https).start es ↔
      (viewer https).Steps Settled (viewer https).start es := by
  have hnever : ∀ i, ¬ (viewer https).start.active i := by
    intro i hi
    unfold Page.active Page.readyState at hi
    simp [viewer] at hi
  constructor
  · exact (viewer https).steps_of_states (fun p e _ _ h => settled_of_disconnects h) hrun
  · intro hsettled
    have hstart : Single (viewer https).start :=
      ⟨fun i hi => absurd hi (hnever i), fun _ => hnever, fun _ h => (by cases h),
        fun _ h => (by cases h)⟩
    exact ((viewer https).states_of_steps (fun p e h he hC => h.step he hC) hstart hrun
      hsettled).mono _ fun p h => h.disconnects

/-! ## Two runs -/

/-- Connect, see a frame, disconnect, wait for the close event, and connect again. -/
def patient : List PageEvent :=
  [.connect "localhost" "a" true, .opened 0, .message 0 (frameMessage 4 3), .loaded 0 4 3,
    .disconnect, .closed 0, .connect "localhost" "b" true, .opened 1]

/-- A user who waits for the connection is disconnected in every state. -/
theorem states_disconnects_patient :
    (viewer false).States Disconnects (viewer false).start patient :=
  (states_disconnects_iff_settled (by decide +kernel)).mpr (by decide +kernel)

/-- Connect to another session, and disconnect before the new socket opens: it opens all the same,
and its frames are drawn. -/
def hasty : List PageEvent :=
  [.connect "localhost" "a" true, .opened 0, .connect "localhost" "b" true, .disconnect, .opened 1,
    .message 1 (frameMessage 4 3), .loaded 0 4 3]

/-- A user who does not is drawn a frame after disconnecting. -/
theorem not_disconnects_hasty :
    (viewer false).IsRun hasty ∧
      ((viewer false).after (viewer false).start hasty).readyState 1 = some .open ∧
      ((viewer false).after (viewer false).start hasty).drawn.any (·.late) = true ∧
      ¬ (viewer false).States Disconnects (viewer false).start hasty := by
  have hlate : ((viewer false).after (viewer false).start hasty).drawn.any (·.late) = true := by
    decide +kernel
  refine ⟨by decide +kernel, by decide +kernel, hlate, fun h => ?_⟩
  obtain ⟨img, himg, hpast⟩ := List.any_eq_true.mp hlate
  rw [h.last.notDrawn img himg] at hpast
  cases hpast

end BrowCast.Web
